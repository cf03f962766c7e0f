import Mathlib.Algebra.BigOperators.Group.List.Basic
import SinIdeas.Utils.Serializators

/-!
# The codec of a PCB

`serialize_pcb` and `deserialize_pcb`. The number of TIDs and the number of mutexes are
not written; the deserializer takes both from whatever stands where it looks. The
mutexes of a PCB are in an array of pointers, which the two functions walk as if it
held the mutexes themselves.
-/

namespace SinIdeas
namespace Utils

open Lib

/-! ## What a PCB points to -/

/-- `t_mutex_pcb`. -/
structure MutexPcb where
  name : List UInt8
  nameLength : UInt32
  assignedTid : UInt32
  assigned : Bool
  deriving DecidableEq

/-- Eight bytes of the memory behind `pcb->mutex`: a pointer to a mutex, or one of the
three parts of a `t_mutex_pcb`. -/
inductive Celda where
  | puntero (mutex : MutexPcb)
  | nombre (name : List UInt8)
  | numeros (nameLength assignedTid : UInt32)
  | bandera (assigned : Bool)
  | sinIniciar
  deriving DecidableEq

/-- The `t_mutex_pcb` at `&(pcb->mutex[i])`. The array is one of pointers, so the index
counts eight bytes; reading a cell as what it is not is undefined. -/
def mutexEn (celdas : List Celda) (i : Nat) : Option MutexPcb :=
  match celdas[i]?, celdas[i + 1]?, celdas[i + 2]? with
  | some (.nombre name), some (.numeros nameLength assignedTid), some (.bandera assigned) =>
      some { name, nameLength, assignedTid, assigned }
  | _, _, _ => none

/-- Store a `t_mutex_pcb` at `&(pcb->mutex[i])`. -/
def guardarMutex (celdas : List Celda) (i : Nat) (m : MutexPcb) : List Celda :=
  ((celdas.set i (.nombre m.name)).set (i + 1) (.numeros m.nameLength m.assignedTid)).set (i + 2)
    (.bandera m.assigned)

/-- `t_tcb` in a PCB; the codec does not look at `parent_PID`. -/
structure TcbDePcb where
  tid : UInt32
  priority : UInt32
  state : State
  filePath : List UInt8
  filePathLength : UInt32
  deriving DecidableEq

/-- `t_pcb` on the wire. -/
structure PcbEnviado where
  pid : UInt32
  state : State
  tids : List UInt32
  tidCount : UInt32
  mutex : List Celda
  mutexCount : UInt32
  tcbs : List TcbDePcb
  numTcbs : UInt32
  size : UInt32
  deriving DecidableEq

/-! ## The two functions -/

/-- The first `n` elements of an array, which has to have as many. -/
def primeros {α : Type} (datos : List α) (n : UInt32) : Option (List α) :=
  if n.toNat ≤ datos.length then some (datos.take n.toNat) else none

/-- The copies of a mutex. -/
def MutexPcb.campos (m : MutexPcb) : Option (List (List UInt8)) := do
  let name ← copiaDe m.name m.nameLength
  some [encode32 m.nameLength, name, encode32 m.assignedTid, [if m.assigned then 1 else 0]]

/-- The copies of a TCB. -/
def TcbDePcb.campos (t : TcbDePcb) : Option (List (List UInt8)) := do
  let filePath ← copiaDe t.filePath t.filePathLength
  some [encode32 t.tid, encode32 t.priority, encode32 t.state.code, encode32 t.filePathLength,
    filePath]

/-- `serialize_pcb`; a `t_tcb` takes 32 bytes, a `bool` one. -/
def serializePcb (p : PcbEnviado) : Option Buffer := do
  let tcbs ← primeros p.tcbs p.numTcbs
  let size := 4 + 4 + p.tidCount.toNat * 4 + p.mutexCount.toNat * (4 + 4 + 1) + 4 +
    p.numTcbs.toNat * 32 + 4 + (tcbs.map (fun t => t.filePathLength.toNat)).sum
  let tids ← primeros p.tids p.tidCount
  let mutexes ← (List.range p.mutexCount.toNat).mapM (mutexEn p.mutex)
  let camposMutexes ← mutexes.mapM MutexPcb.campos
  let camposTcbs ← tcbs.mapM TcbDePcb.campos
  serializar size
    ([encode32 p.pid, encode32 p.state.code, encode32 p.size, tids.flatMap encode32] ++
      camposMutexes.flatten ++ [encode32 p.numTcbs] ++ camposTcbs.flatten)

/-- One turn of the loop over the mutexes. -/
def deserializeMutexPcb : Decoder MutexPcb := do
  let nameLength ← Decoder.word
  let name ← Decoder.bytes nameLength.toNat
  let assignedTid ← Decoder.word
  let assigned ← Decoder.bytes 1
  pure { name, nameLength, assignedTid, assigned := assigned ≠ [0] }

/-- One turn of the loop over the TCBs. -/
def deserializeTcbDePcb : Decoder TcbDePcb := do
  let tid ← Decoder.word
  let priority ← Decoder.word
  let state ← Decoder.word
  let state ← Decoder.ofOption (State.ofCode state)
  let filePathLength ← Decoder.word
  let filePath ← Decoder.bytes filePathLength.toNat
  pure { tid, priority, state, filePath, filePathLength }

/-- `deserialize_pcb`. `tid_size` and `mutex_size` are copied without moving the offset,
and the mutexes are stored in memory for as many `t_mutex_pcb`. -/
def deserializePcb : Decoder PcbEnviado := do
  let pid ← Decoder.word
  let state ← Decoder.word
  let state ← Decoder.ofOption (State.ofCode state)
  let size ← Decoder.word
  let tidSize ← Decoder.peek Decoder.word
  let tids ← Decoder.bytes (tidSize.toNat * 4)
  let mutexSize ← Decoder.peek Decoder.word
  let mutexes ← Decoder.times mutexSize.toNat deserializeMutexPcb
  let numTcbs ← Decoder.word
  let tcbs ← Decoder.times numTcbs.toNat deserializeTcbDePcb
  pure
    { pid, state, tids := words tids, tidCount := tidSize
      mutex := mutexes.zipIdx.foldl (fun celdas (m, i) => guardarMutex celdas i m)
        (List.replicate (3 * mutexSize.toNat) .sinIniciar)
      mutexCount := mutexSize, tcbs, numTcbs, size }

/-! ## A PCB comes back -/

/-- How the mutexes of a PCB are laid out: behind an array of pointers, as its type says
and `mutex_thread.c` builds it, or one after another, as `deserialize_pcb` allocates them. -/
inductive Disposicion where
  | punteros
  | estructuras
  deriving DecidableEq

/-- The memory of an array of mutexes. -/
def Disposicion.celdas : Disposicion → List MutexPcb → List Celda
  | .punteros, mutexes => mutexes.map .puntero
  | .estructuras, mutexes => mutexes.flatMap (fun m =>
      [.nombre m.name, .numeros m.nameLength m.assignedTid, .bandera m.assigned])

/-- A PCB with its mutexes, every length field of which matches its data. -/
structure PcbCompleto (d : Disposicion) where
  pcb : PcbEnviado
  mutexes : List MutexPcb
  tidCount : pcb.tidCount.toNat = pcb.tids.length
  mutex : pcb.mutex = d.celdas mutexes
  mutexCount : pcb.mutexCount.toNat = mutexes.length
  nameLength : ∀ m ∈ mutexes, m.nameLength.toNat = m.name.length
  numTcbs : pcb.numTcbs.toNat = pcb.tcbs.length
  filePathLength : ∀ t ∈ pcb.tcbs, t.filePathLength.toNat = t.filePath.length

/-- `q` has the fields and the arrays of the PCB; its mutexes may be laid out otherwise. -/
structure MismoPcb {d : Disposicion} (c : PcbCompleto d) (q : PcbEnviado) : Prop where
  pid : q.pid = c.pcb.pid
  state : q.state = c.pcb.state
  size : q.size = c.pcb.size
  tidCount : q.tidCount = c.pcb.tidCount
  tids : q.tids = c.pcb.tids
  mutexCount : q.mutexCount = c.pcb.mutexCount
  mutex : ∃ d' : Disposicion, q.mutex = d'.celdas c.mutexes
  numTcbs : q.numTcbs = c.pcb.numTcbs
  tcbs : q.tcbs = c.pcb.tcbs

/-- The PCB survives the codec: `serialize_pcb` writes as many bytes as `buffer->size`
says, and `deserialize_pcb` gives the PCB back from them. -/
def VuelvePcb {d : Disposicion} (c : PcbCompleto d) : Prop :=
  ∃ b q leidos, serializePcb c.pcb = some b ∧ b.escritos = b.size.toNat ∧
    deserializePcb.run b.stream = some (q, leidos) ∧ MismoPcb c q

/-- No mutexes and no TCBs, and no TIDs or, fewer than 2^29 - 3 of them, their number as
the first one. -/
def SoloTids {d : Disposicion} (c : PcbCompleto d) : Prop :=
  c.mutexes = [] ∧ c.pcb.tcbs = [] ∧ c.pcb.tids.length < 2 ^ 29 - 3 ∧
    (c.pcb.tids = [] ∨ c.pcb.tids.head? = some c.pcb.tidCount)

section Written

theorem mapM_cons_eq_some
    {α β : Type} {f : α → Option β} {a : α} {l : List α} {cs : List β}
    (h : (a :: l).mapM f = some cs) :
    ∃ c ds, f a = some c ∧ l.mapM f = some ds ∧ cs = c :: ds := by
  rw [List.mapM_cons] at h
  obtain ⟨c, hc, hrest⟩ := Option.bind_eq_some_iff.mp h
  obtain ⟨ds, hds, hout⟩ := Option.bind_eq_some_iff.mp hrest
  cases hout
  exact ⟨c, ds, hc, hds, rfl⟩

/-- How many bytes the elements of an array take, when each takes `g` of them. -/
theorem length_campos
    {α : Type} {f : α → Option (List (List UInt8))} {g : α → Nat}
    (hf : ∀ a campos, f a = some campos → campos.flatten.length = g a)
    {l : List α} {cs : List (List (List UInt8))}
    (h : l.mapM f = some cs) :
    cs.flatten.flatten.length = (l.map g).sum := by
  induction l generalizing cs with
  | nil =>
      cases h
      rfl
  | cons a l ih =>
      obtain ⟨c, ds, hc, hds, rfl⟩ := mapM_cons_eq_some h
      rw [List.flatten_cons, List.flatten_append, List.length_append, hf a c hc, ih hds,
        List.map_cons, List.sum_cons]

theorem copiaDe_eq_some
    {datos l : List UInt8} {n : UInt32}
    (h : copiaDe datos n = some l) :
    l.length = n.toNat := by
  simp only [copiaDe] at h
  split at h
  · cases h
    rw [List.length_take]
    omega
  · cases h

theorem MutexPcb.campos_eq_some
    {m : MutexPcb} {campos : List (List UInt8)}
    (h : m.campos = some campos) :
    ∃ resto, campos.flatten = encode32 m.nameLength ++ resto ∧
      campos.flatten.length = 9 + m.nameLength.toNat := by
  obtain ⟨name, hname, hcampos⟩ := Option.bind_eq_some_iff.mp h
  cases hcampos
  have hlength := copiaDe_eq_some hname
  refine ⟨name ++ (encode32 m.assignedTid ++ [if m.assigned then 1 else 0]), by simp, ?_⟩
  simp only [List.flatten_cons, List.flatten_nil, List.length_append, length_encode32,
    List.length_singleton, List.length_nil]
  omega

theorem TcbDePcb.campos_eq_some
    {t : TcbDePcb} {campos : List (List UInt8)}
    (h : t.campos = some campos) :
    campos.flatten.length = 16 + t.filePathLength.toNat := by
  obtain ⟨filePath, hpath, hcampos⟩ := Option.bind_eq_some_iff.mp h
  cases hcampos
  have hlength := copiaDe_eq_some hpath
  simp only [List.flatten_cons, List.flatten_nil, List.length_append, length_encode32,
    List.length_nil]
  omega

theorem primeros_length
    {α : Type} {datos : List α} {n : UInt32}
    (h : n.toNat = datos.length) :
    primeros datos n = some datos := by
  rw [primeros, if_pos (by omega), h, List.take_length]

/-- What a serializer that writes as many bytes as its size field says leaves. -/
theorem serializar_eq_some
    {size : Nat} {campos : List (List UInt8)} {b : Buffer}
    (h : serializar size campos = some b)
    (hsize : b.escritos = b.size.toNat) :
    campos.flatten.length = size % 2 ^ 32 ∧ b.stream = campos.flatten := by
  obtain ⟨block, hcopied, hb⟩ := Option.bind_eq_some_iff.mp h
  cases hb
  have hwritten : block.written = campos.flatten.length := by
    have hcount := Block.written_copyAll campos hcopied
    rwa [Block.fresh, Nat.zero_add] at hcount
  have hlength : campos.flatten.length = size % 2 ^ 32 := by
    rw [← hwritten]
    simpa using hsize
  have hle : size % 2 ^ 32 ≤ size := Nat.mod_le _ _
  obtain ⟨block', hcopied', hcontent, _⟩ :=
    Block.copyAll_fresh size campos (by omega) (by omega)
  rw [hcopied] at hcopied'
  cases hcopied'
  exact ⟨hlength, hcontent⟩

/-- The loop over the mutexes leaves the array at the second one, and already at the first
one when it holds pointers. -/
theorem mutexes_leidos
    {d : Disposicion} {mutexes leidos : List MutexPcb}
    (h : (List.range mutexes.length).mapM (mutexEn (d.celdas mutexes)) = some leidos) :
    mutexes.length ≤ 1 ∧ leidos = mutexes := by
  cases mutexes with
  | nil =>
      cases h
      exact ⟨Nat.zero_le _, rfl⟩
  | cons m mutexes =>
      rw [List.length_cons, List.range_succ_eq_map] at h
      obtain ⟨first, rest, hfirst, hrest, rfl⟩ := mapM_cons_eq_some h
      cases d with
      | punteros =>
          cases hfirst
      | estructuras =>
          have hfirst' : some m = some first := hfirst
          cases hfirst'
          cases mutexes with
          | nil =>
              cases hrest
              exact ⟨le_refl _, rfl⟩
          | cons m' mutexes =>
              rw [List.length_cons, List.range_succ_eq_map, List.map_cons] at hrest
              obtain ⟨second, _, hsecond, _, _⟩ := mapM_cons_eq_some hrest
              cases hsecond

end Written

section Counts

variable {mem : List UInt8} {q : PcbEnviado} {leidos : List Nat}

/-- Where the deserializer takes the two counts from. -/
theorem deserializePcb_eq_some
    (h : deserializePcb.run mem = some (q, leidos)) :
    12 + q.tidCount.toNat * 4 ≤ mem.length ∧
      encode32 q.tidCount = (mem.drop 12).take 4 ∧
      0 ≤ wrap32 ((12 + q.tidCount.toNat * 4 : Nat) : Int) ∧
      encode32 q.mutexCount =
        (mem.drop (wrap32 ((12 + q.tidCount.toNat * 4 : Nat) : Int)).toNat).take 4 := by
  obtain ⟨⟨q', r⟩, hrun, hout⟩ := Option.map_eq_some_iff.mp h
  cases hout
  obtain ⟨⟨pid, r₁⟩, hpid, hrun⟩ := Option.bind_eq_some_iff.mp hrun
  obtain ⟨⟨code, r₂⟩, hcode, hrun⟩ := Option.bind_eq_some_iff.mp hrun
  obtain ⟨⟨state, r₃⟩, hstate, hrun⟩ := Option.bind_eq_some_iff.mp hrun
  obtain ⟨⟨size, r₄⟩, hsize, hrun⟩ := Option.bind_eq_some_iff.mp hrun
  obtain ⟨⟨tidSize, r₅⟩, htidSize, hrun⟩ := Option.bind_eq_some_iff.mp hrun
  obtain ⟨⟨tids, r₆⟩, htids, hrun⟩ := Option.bind_eq_some_iff.mp hrun
  obtain ⟨⟨mutexSize, r₇⟩, hmutexSize, hrun⟩ := Option.bind_eq_some_iff.mp hrun
  obtain ⟨⟨mutexes, r₈⟩, hmutexes, hrun⟩ := Option.bind_eq_some_iff.mp hrun
  obtain ⟨⟨numTcbs, r₉⟩, hnumTcbs, hrun⟩ := Option.bind_eq_some_iff.mp hrun
  obtain ⟨⟨tcbs, r₁₀⟩, htcbs, hrun⟩ := Option.bind_eq_some_iff.mp hrun
  cases hrun
  -- the three words of the header leave the offset at 12
  have hr₁ : r₁.offset = wrap32 4 := Decoder.word_offset hpid
  have hr₂ : r₂.offset = wrap32 (r₁.offset + 4) := Decoder.word_offset hcode
  have hr₃ : r₂ = r₃ := by
    obtain ⟨_, _, hpair⟩ := Option.map_eq_some_iff.mp hstate
    exact congrArg Prod.snd hpair
  have hr₄ : r₄.offset = 12 := by
    have hmoved : r₄.offset = wrap32 (r₃.offset + 4) := Decoder.word_offset hsize
    rw [hmoved, ← hr₃, hr₂, hr₁]
    decide
  obtain ⟨_, hfirst, hr₅⟩ := Decoder.peek_eq_some htidSize
  have hr₅ : r₅.offset = 12 := hr₅.trans hr₄
  obtain ⟨_, _, hcount, _⟩ := Decoder.word_eq_some hfirst
  obtain ⟨_, hinside, _, _⟩ := Decoder.bytes_eq_some htids
  have hr₆ : r₆.offset = wrap32 ((12 + tidSize.toNat * 4 : Nat) : Int) := by
    have hmoved : r₆.offset = wrap32 (r₅.offset + (tidSize.toNat * 4 : Nat)) :=
      Decoder.bytes_offset htids
    have hsum : (12 : Int) + (tidSize.toNat * 4 : Nat) = ((12 + tidSize.toNat * 4 : Nat) : Int) := by
      omega
    rw [hmoved, hr₅, hsum]
  obtain ⟨_, hsecond, _⟩ := Decoder.peek_eq_some hmutexSize
  obtain ⟨hpos, _, hmutexCount, _⟩ := Decoder.word_eq_some hsecond
  simp only [hr₄, hr₅, hr₆] at hcount hinside hpos hmutexCount
  exact ⟨hinside, hcount, hpos, hmutexCount⟩

end Counts

section RoundTrip

variable {d : Disposicion} {c : PcbCompleto d}

/-- A PCB that comes back is written as its fields, at most one of them a mutex. -/
theorem VuelvePcb.campos
    (h : VuelvePcb c) :
    ∃ cuerpo q leidos,
      deserializePcb.run (encode32 c.pcb.pid ++ (encode32 c.pcb.state.code ++
        (encode32 c.pcb.size ++ (c.pcb.tids.flatMap encode32 ++ cuerpo)))) = some (q, leidos) ∧
      MismoPcb c q ∧ 12 + c.pcb.tids.length * 4 + cuerpo.length < 2 ^ 32 ∧
      ((c.mutexes = [] ∧ c.pcb.tcbs = []) ∨
        ∃ m resto, c.mutexes = [m] ∧ m.nameLength.toNat = c.pcb.tcbs.length * 16 ∧
          cuerpo = encode32 m.nameLength ++ resto) := by
  obtain ⟨b, q, leidos, hserialize, hsize, hrun, hmismo⟩ := h
  rw [serializePcb, primeros_length c.numTcbs, primeros_length c.tidCount] at hserialize
  simp only [Option.bind_eq_bind, Option.bind_some, Option.bind_eq_some_iff] at hserialize
  obtain ⟨mutexes, hmutexes, camposMutexes, hcamposMutexes, camposTcbs, hcamposTcbs, hb⟩ :=
    hserialize
  rw [c.mutex, c.mutexCount] at hmutexes
  obtain ⟨hone, rfl⟩ := mutexes_leidos hmutexes
  obtain ⟨hlength, hstream⟩ := serializar_eq_some hb hsize
  have htcbs := length_campos (fun t campos => TcbDePcb.campos_eq_some) hcamposTcbs
  have hsum : (c.pcb.tcbs.map (fun t => 16 + t.filePathLength.toNat)).sum =
      c.pcb.tcbs.length * 16 + (c.pcb.tcbs.map (fun t => t.filePathLength.toNat)).sum := by
    rw [List.sum_map_add, List.map_const', List.sum_replicate_nat]
  simp only [List.flatten_append, List.flatten_cons, List.flatten_nil, List.length_append,
    length_encode32, length_flatMap_encode32, List.append_nil, htcbs, hsum, c.tidCount,
    c.mutexCount, c.numTcbs] at hlength
  refine ⟨camposMutexes.flatten.flatten ++ (encode32 c.pcb.numTcbs ++ camposTcbs.flatten.flatten),
    q, leidos, ?_, hmismo, ?_, ?_⟩
  · rw [← hrun, hstream]
    simp only [List.flatten_append, List.flatten_cons, List.flatten_nil, List.append_assoc,
      List.append_nil]
  · simp only [List.length_append, length_encode32, htcbs, hsum]
    omega
  · match hm : c.mutexes, hone with
    | [], _ =>
        rw [hm] at hcamposMutexes
        obtain rfl : camposMutexes = [] := (Option.some.inj hcamposMutexes).symm
        refine Or.inl ⟨rfl, ?_⟩
        apply List.eq_nil_of_length_eq_zero
        simp only [hm, List.flatten_nil, List.length_nil] at hlength
        omega
    | [m], _ =>
        rw [hm] at hcamposMutexes
        obtain ⟨campos, restantes, hcampos, hnil, rfl⟩ := mapM_cons_eq_some hcamposMutexes
        obtain rfl : restantes = [] := (Option.some.inj hnil).symm
        obtain ⟨resto, hresto, hcount⟩ := MutexPcb.campos_eq_some hcampos
        refine Or.inr ⟨m, resto ++ (encode32 c.pcb.numTcbs ++ camposTcbs.flatten.flatten), rfl, ?_, ?_⟩
        · simp only [hm, List.flatten_cons, List.flatten_nil, List.append_nil, hcount,
            List.length_singleton] at hlength
          have hsmall := m.nameLength.toNat_lt
          omega
        · simp only [List.flatten_cons, List.flatten_nil, List.append_nil, hresto,
            List.append_assoc]

/-- Only TIDs, if any, come back, and their number has to be the first of them. -/
theorem VuelvePcb.soloTids
    (h : VuelvePcb c) :
    SoloTids c := by
  obtain ⟨cuerpo, q, leidos, hrun, hmismo, hsmall, hcases⟩ := h.campos
  obtain ⟨hinside, hcount, hpos, hmutexCount⟩ := deserializePcb_eq_some hrun
  have hheader : encode32 c.pcb.pid ++ (encode32 c.pcb.state.code ++
      (encode32 c.pcb.size ++ (c.pcb.tids.flatMap encode32 ++ cuerpo))) =
        (encode32 c.pcb.pid ++ encode32 c.pcb.state.code ++ encode32 c.pcb.size) ++
          (c.pcb.tids.flatMap encode32 ++ cuerpo) := by
    simp only [List.append_assoc]
  have hheaderLength :
      (encode32 c.pcb.pid ++ encode32 c.pcb.state.code ++ encode32 c.pcb.size).length = 12 := by
    simp
  rw [hmismo.tidCount, c.tidCount] at hinside hpos hmutexCount
  rw [hmismo.tidCount, hheader, List.drop_left' hheaderLength] at hcount
  have hlow : 12 + c.pcb.tids.length * 4 < 2 ^ 31 := by
    by_contra hhigh
    have hneg := wrap32_neg (not_lt.mp hhigh) (by omega)
    omega
  -- a mutex would have its length where the number of mutexes is looked for
  have hnone : c.mutexes = [] ∧ c.pcb.tcbs = [] := by
    rcases hcases with hnone | ⟨m, resto, hm, hname, hcuerpo⟩
    · exact hnone
    · have hbody : (c.pcb.tids.flatMap encode32 ++ cuerpo).drop (c.pcb.tids.length * 4) = cuerpo := by
        rw [List.drop_left' (by rw [length_flatMap_encode32, Nat.mul_comm])]
      rw [wrap32_of_lt hlow, Int.toNat_natCast, hheader, ← List.drop_drop,
        List.drop_left' hheaderLength, hbody, hcuerpo, List.take_left' (length_encode32 _)] at hmutexCount
      have hlength : m.nameLength.toNat = c.mutexes.length := by
        rw [← encode32_inj hmutexCount, hmismo.mutexCount, c.mutexCount]
      rw [hm, List.length_singleton] at hlength
      omega
  refine ⟨hnone.1, hnone.2, by omega, ?_⟩
  cases htids : c.pcb.tids with
  | nil =>
      exact Or.inl rfl
  | cons t ts =>
      refine Or.inr ?_
      rw [htids, List.flatMap_cons, List.append_assoc, List.take_left' (length_encode32 t)] at hcount
      rw [List.head?_cons, encode32_inj hcount]

theorem PcbCompleto.mutexCount_eq_zero
    (h : c.mutexes = []) :
    c.pcb.mutexCount = 0 := by
  apply UInt32.toNat_inj.mp
  rw [c.mutexCount, h]
  rfl

theorem PcbCompleto.numTcbs_eq_zero
    (h : c.pcb.tcbs = []) :
    c.pcb.numTcbs = 0 := by
  apply UInt32.toNat_inj.mp
  rw [c.numTcbs, h]
  rfl

/-- What is written of a PCB without mutexes and TCBs. -/
theorem serializePcb_of_nil
    (hmutexes : c.mutexes = [])
    (htcbs : c.pcb.tcbs = [])
    (hsmall : 16 + c.pcb.tids.length * 4 < 2 ^ 32) :
    ∃ b, serializePcb c.pcb = some b ∧ b.escritos = b.size.toNat ∧
      b.stream = encode32 c.pcb.pid ++ (encode32 c.pcb.state.code ++
        (encode32 c.pcb.size ++ (c.pcb.tids.flatMap encode32 ++ encode32 0))) := by
  have hcampos : [encode32 c.pcb.pid, encode32 c.pcb.state.code, encode32 c.pcb.size,
      c.pcb.tids.flatMap encode32, encode32 0].flatten.length =
        4 + 4 + c.pcb.tids.length * 4 + 4 + 4 := by
    simp only [List.flatten_cons, List.flatten_nil, List.length_append, length_encode32,
      length_flatMap_encode32, List.length_nil]
    omega
  obtain ⟨block, hcopied, hcontent, hwritten⟩ :=
    Block.copyAll_fresh (4 + 4 + c.pcb.tids.length * 4 + 4 + 4)
      [encode32 c.pcb.pid, encode32 c.pcb.state.code, encode32 c.pcb.size,
        c.pcb.tids.flatMap encode32, encode32 0] hcampos.le (by omega)
  refine ⟨{ size := UInt32.ofNat (4 + 4 + c.pcb.tids.length * 4 + 4 + 4), stream := block.content
            escritos := block.written }, ?_, ?_, ?_⟩
  · rw [serializePcb, primeros_length c.numTcbs, primeros_length c.tidCount, htcbs,
      PcbCompleto.numTcbs_eq_zero htcbs, PcbCompleto.mutexCount_eq_zero hmutexes, c.tidCount]
    simp only [Option.bind_eq_bind, Option.bind_some, List.range_zero, List.mapM_nil, List.map_nil,
      List.sum_nil, UInt32.toNat_zero, Nat.zero_mul, Nat.add_zero, Option.pure_def, serializar,
      serializarEn, List.flatten_nil, List.cons_append, List.nil_append, hcopied]
  · rw [hwritten, hcampos, UInt32.toNat_ofNat_of_lt' (by rw [UInt32.size]; omega)]
  · simp only [hcontent, List.flatten_cons, List.flatten_nil, List.append_nil]

/-- What is read of it, when the number of TIDs is the first of them. -/
theorem reads_deserializePcb
    (pid size : UInt32) (state : State) {tidCount : UInt32} {tids : List UInt32}
    (hcount : tidCount.toNat = tids.length)
    (hlow : 12 + tids.length * 4 < 2 ^ 31)
    (hfirst : tids = [] ∨ tids.head? = some tidCount) :
    Reads deserializePcb
      (encode32 pid ++ (encode32 state.code ++ (encode32 size ++
        (tids.flatMap encode32 ++ encode32 0)))) 0
      { pid, state, tids, tidCount, mutex := [], mutexCount := 0, tcbs := [], numTcbs := 0, size }
      (12 + tidCount.toNat * 4 + 4) := by
  have hlength : (tids.flatMap encode32).length = tidCount.toNat * 4 := by
    rw [length_flatMap_encode32, hcount, Nat.mul_comm]
  -- the number of TIDs is looked for where the first of them stands, or the number of TCBs
  obtain ⟨resto, hresto⟩ : ∃ resto,
      tids.flatMap encode32 ++ encode32 0 = encode32 tidCount ++ resto := by
    cases tids with
    | nil =>
        have hzero : tidCount = 0 := UInt32.toNat_inj.mp hcount
        exact ⟨[], by rw [hzero, List.flatMap_nil, List.nil_append, List.append_nil]⟩
    | cons t ts =>
        rcases hfirst with hnil | hhead
        · cases hnil
        · cases hhead
          exact ⟨ts.flatMap encode32 ++ encode32 0, by rw [List.flatMap_cons, List.append_assoc]⟩
  have hend : (tids.flatMap encode32 ++ encode32 0).drop (tidCount.toNat * 4) =
      encode32 0 ++ [] := by
    rw [List.drop_left' hlength, List.append_nil]
  refine Reads.bind (Reads.word (by decide) rfl) ?_
  refine Reads.bind (Reads.word (by decide) rfl) ?_
  refine Reads.ofOption_bind (State.ofCode_code state) ?_
  refine Reads.bind (Reads.word (by decide) rfl) ?_
  refine Reads.bind (Reads.peek (Reads.word (by decide) hresto)) ?_
  refine Reads.bind (Reads.bytes (by decide) hlength ?_ rfl) ?_
  · simp only [List.length_append, length_encode32]
    omega
  have hlast : (encode32 pid ++ (encode32 state.code ++ (encode32 size ++
      (tids.flatMap encode32 ++ encode32 0)))).drop (12 + tidCount.toNat * 4) = encode32 0 ++ [] := by
    rw [← List.drop_drop]
    exact hend
  have hstart : 12 + tidCount.toNat * 4 < 2 ^ 31 := by
    omega
  refine Reads.bind (Reads.peek (Reads.word hstart hlast)) ?_
  refine Reads.bind (Reads.pure [] _ _) ?_
  refine Reads.bind (Reads.word hstart hlast) ?_
  refine Reads.bind (Reads.pure [] _ _) ?_
  rw [words_flatMap_encode32]
  exact Reads.pure _ _ _

theorem SoloTids.vuelvePcb
    (h : SoloTids c) :
    VuelvePcb c := by
  obtain ⟨hmutexes, htcbs, hlow, hfirst⟩ := h
  obtain ⟨b, hserialize, hsize, hstream⟩ := serializePcb_of_nil hmutexes htcbs (by omega)
  obtain ⟨leidos, hrun⟩ :=
    (reads_deserializePcb c.pcb.pid c.pcb.size c.pcb.state c.tidCount (by omega) hfirst).run
  rw [← hstream] at hrun
  refine ⟨b, _, leidos, hserialize, hsize, hrun, ?_⟩
  exact
    { pid := rfl, state := rfl, size := rfl, tidCount := rfl, tids := rfl
      mutexCount := (PcbCompleto.mutexCount_eq_zero hmutexes).symm
      mutex := ⟨.punteros, by rw [hmutexes]; rfl⟩
      numTcbs := (PcbCompleto.numTcbs_eq_zero htcbs).symm
      tcbs := htcbs.symm }

end RoundTrip

/-- A PCB survives the codec exactly when it has no mutexes and no TCBs, and no TIDs or
their number as the first of them. -/
theorem pcb_codec_round_trips_iff
    (d : Disposicion) (c : PcbCompleto d) :
    VuelvePcb c ↔ SoloTids c :=
  ⟨VuelvePcb.soloTids, SoloTids.vuelvePcb⟩

/-- A process with the thread 0 and nothing else. -/
def pcbDeUnHilo : PcbCompleto .punteros where
  pcb :=
    { pid := 1, state := .new, tids := [0], tidCount := 1, mutex := [], mutexCount := 0
      tcbs := [], numTcbs := 0, size := 64 }
  mutexes := []
  tidCount := by decide
  mutex := rfl
  mutexCount := rfl
  nameLength := by decide
  numTcbs := rfl
  filePathLength := by decide

/-- The TID 0 is read as the number of TIDs, and the PCB comes back without threads. -/
theorem pcb_of_one_thread_loses_it :
    ¬ VuelvePcb pcbDeUnHilo := by
  intro h
  have hfirst := h.soloTids.2.2.2
  revert hfirst
  decide

end Utils
end SinIdeas
