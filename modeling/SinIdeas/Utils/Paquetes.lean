import SinIdeas.Utils.Serializators

/-!
# Packages over a connection

A package is an operation code and a stream of sized values. `send_package`
writes the code, the size of the stream and the stream; on the other side
`receive_operation_code` reads the code and `receive_package` the size, the
stream and then the values in it.

A connection is the bytes the peer has sent and nobody has read, together with
what was done to its descriptor. Once they are used up the peer has closed it: a
receive gets fewer bytes than it asks for.
-/

namespace SinIdeas
namespace Utils

open Lib

/-! ## Building and sending -/

/-- `t_paquete` with its buffer. -/
structure Paquete where
  operationCode : OpCode
  size : UInt32
  stream : List UInt8
  deriving DecidableEq

/-- `create_package`. -/
def createPackage (op : OpCode) : Paquete :=
  { operationCode := op, size := 0, stream := [] }

/-- `add_to_package`; `realloc` asks for `buffer->size + size + sizeof(int)`
bytes, where the first sum is a 32-bit one, and `size` is an `int`. -/
def addToPackage (p : Paquete) (value : List UInt8) : Option Paquete :=
  let n := UInt32.ofNat value.length
  if value.length < 2 ^ 31 ∧
      p.size.toNat + 4 + value.length ≤ (p.size + n).toNat + 4 then
    some { p with
      size := p.size + (n + 4)
      stream := p.stream.take p.size.toNat ++ encode32 n ++ value }
  else
    none

/-- `serialize_package`; the number of bytes it allocates is an `int`. -/
def serializePackage (p : Paquete) : Option (List UInt8) := do
  let bytes := wrap32 ((4 + 4 + p.size.toNat : Nat) : Int)
  let stream ← copiaDe p.stream p.size
  let magic ← (Block.fresh bytes.toNat).copyAll
    [encode32 p.operationCode.code, encode32 p.size, stream]
  some magic.content

/-- `send_package`: the bytes handed to `send`. -/
def sendPackage (p : Paquete) : Option (List UInt8) := do
  let bytes := wrap32 ((p.size.toNat + 2 * 4 : Nat) : Int)
  let toSend ← serializePackage p
  if 0 ≤ bytes ∧ bytes.toNat ≤ toSend.length then some (toSend.take bytes.toNat) else none

/-! ## Receiving -/

/-- One end of a connection: the bytes that arrived and were not read, how often
its descriptor was closed and how often it was read after that, and whether the peer is
still connected. -/
structure Conexion where
  pendientes : List UInt8
  cierres : Nat
  tarde : Nat
  conectado : Bool := false
  deriving DecidableEq

/-- A connection nobody has closed here; the peer sent the bytes and closed, if it is not
still connected. -/
def Conexion.abierta (pendientes : List UInt8) (conectado : Bool := false) : Conexion :=
  { pendientes, cierres := 0, tarde := 0, conectado }

/-- `recv` of `n` bytes with `MSG_WAITALL`: what it copies, less than `n` bytes
at the end of the stream and nothing on a closed descriptor; `none` while it waits for
bytes of a peer that is still connected. -/
def Conexion.recv (s : Conexion) (n : Nat) : Option (List UInt8 × Conexion) :=
  if s.cierres = 0 then
    if s.conectado = true ∧ s.pendientes.length < n then
      none
    else
      some (s.pendientes.take n, { s with pendientes := s.pendientes.drop n })
  else
    some ([], { s with tarde := s.tarde + 1 })

/-- `close` of the descriptor. -/
def Conexion.close (s : Conexion) : Conexion :=
  { s with cierres := s.cierres + 1 }

/-- `receive_operation_code`; `none` while it waits, and when the stream ends with a part
of a code. -/
def receiveOperationCode (s : Conexion) : Option (Int × Conexion) := do
  let (got, s) ← s.recv 4
  if 0 < got.length then
    (decode32 got).map (fun code => (wrap32 code.toNat, s))
  else
    some (-1, s.close)

/-- `receive_buffer`. The variable for the size starts with the bytes
`inicial` (none when it is not initialised) and keeps those that are not
received; `malloc` of a negative size gives no buffer. -/
def receiveBuffer (inicial : List UInt8) (s : Conexion) :
    Option ((Int × List UInt8) × Conexion) := do
  let (got, s) ← s.recv 4
  let size ← decode32 (got ++ inicial.drop got.length)
  let size := wrap32 size.toNat
  if size < 0 then
    none
  else
    let (buffer, s) ← s.recv size.toNat
    some ((size, buffer), s)

/-- The loop of `receive_package`: values while the offset is below the size.
Each turn moves at least four bytes, so `size` turns are enough. -/
def receiveValues : Nat → Int → Decoder (List (List UInt8))
  | 0, _ => Decoder.fail
  | turnos + 1, size => do
      let offset ← Decoder.position
      if offset < size then do
        let elementSize ← Decoder.word
        if wrap32 elementSize.toNat < 0 then
          Decoder.fail
        else do
          let value ← Decoder.bytes elementSize.toNat
          let values ← receiveValues turnos size
          pure (value :: values)
      else
        pure []

/-- `receive_package`. -/
def receivePackage (s : Conexion) : Option (List (List UInt8) × Conexion) := do
  let ((size, buffer), s) ← receiveBuffer (encode32 0) s
  let (values, _) ← (receiveValues (size.toNat + 1) size).run buffer
  some (values, s)

/-! ## A sequence of packages -/

/-- What a package is built from. -/
structure Envio where
  operationCode : OpCode
  values : List (List UInt8)
  deriving DecidableEq

namespace Envio

/-- The bytes of a package on the wire: two words and every value with its
size. -/
def tamanio (e : Envio) : Nat :=
  8 + (e.values.map (fun v => 4 + v.length)).sum

/-- `create_package` and one `add_to_package` for each value. -/
def construir (e : Envio) : Option Paquete :=
  e.values.foldlM addToPackage (createPackage e.operationCode)

/-- The bytes sent for a package. -/
def enviar (e : Envio) : Option (List UInt8) := do
  let p ← e.construir
  sendPackage p

end Envio

/-- `receive_operation_code` and `receive_package`, so many times. -/
def recibir : Nat → Conexion → Option (List (Int × List (List UInt8)) × Conexion)
  | 0, s => some ([], s)
  | n + 1, s => do
      let (code, s) ← receiveOperationCode s
      let (values, s) ← receivePackage s
      let (rest, s) ← recibir n s
      some ((code, values) :: rest, s)

/-! ## One package -/

/-- A value in the stream of a package. -/
def valorEnviado (v : List UInt8) : List UInt8 :=
  encode32 (UInt32.ofNat v.length) ++ v

@[simp] theorem length_flatMap_valorEnviado
    (values : List (List UInt8)) :
    (values.flatMap valorEnviado).length = (values.map (fun v => 4 + v.length)).sum := by
  rw [List.length_flatMap]
  simp [valorEnviado]

/-- Adding a value to a package whose size field is right. -/
theorem addToPackage_eq
    {p : Paquete} (v : List UInt8)
    (hsize : p.size.toNat = p.stream.length)
    (hsmall : p.stream.length + (4 + v.length) < 2 ^ 31) :
    ∃ q, addToPackage p v = some q ∧
      q.operationCode = p.operationCode ∧
      q.stream = p.stream ++ valorEnviado v ∧
      q.size.toNat = q.stream.length := by
  have hv := UInt32.toNat_ofNat_of_lt' (n := v.length) (by rw [UInt32.size]; omega)
  have hsum : (p.size + UInt32.ofNat v.length).toNat = p.stream.length + v.length := by
    rw [UInt32.toNat_add, hv, hsize]
    omega
  have hstream : p.stream.take p.size.toNat = p.stream := by
    rw [hsize, List.take_length]
  refine ⟨{ p with
      size := p.size + (UInt32.ofNat v.length + 4)
      stream := p.stream.take p.size.toNat ++ encode32 (UInt32.ofNat v.length) ++ v },
    ?_, rfl, ?_, ?_⟩
  · simp only [addToPackage]
    rw [if_pos ⟨by omega, by omega⟩]
  · simp only [hstream, valorEnviado, List.append_assoc]
  · simp only [hstream, List.length_append, length_encode32]
    rw [UInt32.toNat_add, UInt32.toNat_add, hv, hsize]
    simp only [UInt32.reduceToNat]
    omega

theorem foldlM_addToPackage
    (values : List (List UInt8)) (p : Paquete)
    (hsize : p.size.toNat = p.stream.length)
    (hsmall : p.stream.length + (values.flatMap valorEnviado).length < 2 ^ 31) :
    ∃ q, values.foldlM addToPackage p = some q ∧
      q.operationCode = p.operationCode ∧
      q.stream = p.stream ++ values.flatMap valorEnviado ∧
      q.size.toNat = q.stream.length := by
  induction values generalizing p with
  | nil =>
      exact ⟨p, rfl, rfl, by simp, hsize⟩
  | cons v values ih =>
      have hlen : (valorEnviado v).length = 4 + v.length := by
        simp [valorEnviado]
      rw [List.flatMap_cons, List.length_append, hlen] at hsmall
      obtain ⟨mid, hadd, hop, hstream, hmid⟩ := addToPackage_eq v hsize (by omega)
      obtain ⟨q, hrest, hqop, hqstream, hq⟩ := ih mid hmid (by
        rw [hstream, List.length_append, hlen]
        omega)
      refine ⟨q, ?_, hqop.trans hop, ?_, hq⟩
      · rw [List.foldlM_cons, hadd]
        exact hrest
      · rw [hqstream, hstream, List.flatMap_cons, List.append_assoc]

/-- The bytes of a package: its code, the size of the stream and the stream. -/
theorem sendPackage_eq
    {p : Paquete}
    (hsize : p.size.toNat = p.stream.length)
    (hsmall : 8 + p.stream.length < 2 ^ 31) :
    sendPackage p = some (encode32 p.operationCode.code ++ (encode32 p.size ++ p.stream)) := by
  have hfields : [encode32 p.operationCode.code, encode32 p.size, p.stream].flatten =
      encode32 p.operationCode.code ++ (encode32 p.size ++ p.stream) := by
    simp
  have hlength : (encode32 p.operationCode.code ++ (encode32 p.size ++ p.stream)).length =
      8 + p.stream.length := by
    simp only [List.length_append, length_encode32]
    omega
  have hbytes : wrap32 ((4 + 4 + p.size.toNat : Nat) : Int) = ((8 + p.stream.length : Nat) : Int) := by
    rw [wrap32_of_lt] <;> omega
  have hsent : wrap32 ((p.size.toNat + 2 * 4 : Nat) : Int) = ((8 + p.stream.length : Nat) : Int) := by
    rw [wrap32_of_lt] <;> omega
  obtain ⟨b, hb, hcontent, -⟩ := Block.copyAll_fresh (8 + p.stream.length)
    [encode32 p.operationCode.code, encode32 p.size, p.stream]
    (by rw [hfields, hlength]) (by rw [hfields, hlength]; omega)
  have hserialized : serializePackage p =
      some (encode32 p.operationCode.code ++ (encode32 p.size ++ p.stream)) := by
    have hcopy : copiaDe p.stream p.size = some p.stream := by
      rw [copiaDe, if_pos (by omega), hsize, List.take_length]
    simp only [serializePackage, hcopy, hbytes, Int.toNat_natCast]
    rw [Option.bind_eq_bind, Option.bind_some, hb, Option.bind_eq_bind, Option.bind_some,
      hcontent, hfields]
  simp only [sendPackage, hserialized, hsent, Int.toNat_natCast, Option.bind_eq_bind,
    Option.bind_some]
  rw [if_pos ⟨by omega, by omega⟩, ← hlength, List.take_length]

/-- A package whose bytes do not fit an `int` is not sent. -/
theorem sendPackage_none
    {p : Paquete}
    (hbig : 2 ^ 31 ≤ 8 + p.size.toNat) :
    sendPackage p = none := by
  have hserialized : serializePackage p = none := by
    unfold serializePackage
    cases copiaDe p.stream p.size with
    | none =>
        rfl
    | some stream =>
        have hcapacity : (wrap32 ((4 + 4 + p.size.toNat : Nat) : Int)).toNat < 8 :=
          wrap32_header hbig p.size.toNat_lt
        have hheader : [encode32 p.operationCode.code, encode32 p.size].flatten.length = 8 := by
          simp
        have hnone := Block.copyAll_fresh_none _
          [encode32 p.operationCode.code, encode32 p.size] [stream]
          (by rw [hheader]; exact hcapacity) (by rw [hheader]; decide)
        rw [List.cons_append, List.cons_append, List.nil_append] at hnone
        rw [Option.bind_eq_bind, Option.bind_some, hnone, Option.bind_eq_bind, Option.bind_none]
  unfold sendPackage
  rw [hserialized, Option.bind_eq_bind, Option.bind_none]

/-- Everything `send_package` can send. -/
theorem sendPackage_cases
    {p : Paquete} {bytes : List UInt8}
    (h : sendPackage p = some bytes) :
    ∃ stream, stream.length = p.size.toNat ∧ 8 + p.size.toNat < 2 ^ 31 ∧
      stream = p.stream.take p.size.toNat ∧
      bytes = encode32 p.operationCode.code ++ (encode32 p.size ++ stream) := by
  have hsmall : 8 + p.size.toNat < 2 ^ 31 := by
    by_contra hbig
    rw [sendPackage_none (by omega)] at h
    cases h
  have hlong : p.size.toNat ≤ p.stream.length := by
    by_contra hshort
    simp [sendPackage, serializePackage, copiaDe, hshort] at h
  have hlength : (p.stream.take p.size.toNat).length = p.size.toNat := by
    rw [List.length_take]
    omega
  -- Only the first bytes of the stream count.
  have hsame : sendPackage p = sendPackage { p with stream := p.stream.take p.size.toNat } := by
    have hcopy : copiaDe (p.stream.take p.size.toNat) p.size = copiaDe p.stream p.size := by
      rw [copiaDe, if_pos (by omega), copiaDe, if_pos hlong, List.take_take, Nat.min_self]
    unfold sendPackage serializePackage
    rw [hcopy]
  rw [hsame, sendPackage_eq hlength.symm (by rw [hlength]; exact hsmall)] at h
  exact ⟨_, hlength, hsmall, rfl, (Option.some.inj h).symm⟩

/-- The bytes of a package on the wire. -/
def Envio.bytes (e : Envio) : List UInt8 :=
  encode32 e.operationCode.code ++
    (encode32 (UInt32.ofNat (e.values.flatMap valorEnviado).length) ++
      e.values.flatMap valorEnviado)

theorem Envio.enviar_eq
    {e : Envio}
    (h : e.tamanio < 2 ^ 31) :
    e.enviar = some e.bytes := by
  have hsmall : 8 + (e.values.flatMap valorEnviado).length < 2 ^ 31 := by
    rw [length_flatMap_valorEnviado]
    exact h
  obtain ⟨p, hp, hop, hstream, hsize⟩ :=
    foldlM_addToPackage e.values (createPackage e.operationCode) rfl (by
      simp only [createPackage, List.length_nil]
      omega)
  simp only [createPackage, List.nil_append] at hop hstream
  have hfield : p.size = UInt32.ofNat (e.values.flatMap valorEnviado).length := by
    rw [← hstream, ← hsize, UInt32.ofNat_toNat]
  rw [Envio.enviar, Envio.construir, hp, Option.bind_eq_bind, Option.bind_some,
    sendPackage_eq hsize (by rw [hstream]; exact hsmall), hop, hfield, hstream, Envio.bytes]

theorem addToPackage_cases
    {p q : Paquete} {value : List UInt8}
    (h : addToPackage p value = some q) :
    value.length < 2 ^ 31 ∧ q.size = p.size + (UInt32.ofNat value.length + 4) := by
  simp only [addToPackage] at h
  split at h
  · rename_i hfits
    obtain rfl := Option.some.inj h
    exact ⟨hfits.1, rfl⟩
  · cases h

/-- Only packages that fit an `int` are sent. -/
theorem tamanio_of_enviar
    {op : OpCode} {value bytes : List UInt8}
    (h : Envio.enviar { operationCode := op, values := [value] } = some bytes) :
    Envio.tamanio { operationCode := op, values := [value] } < 2 ^ 31 := by
  obtain ⟨p, hbuilt, hsent⟩ := Option.bind_eq_some_iff.mp h
  obtain ⟨q, hadded, hq⟩ := Option.bind_eq_some_iff.mp hbuilt
  obtain rfl : q = p := Option.some.inj hq
  obtain ⟨_, _, hsmall, _⟩ := sendPackage_cases hsent
  obtain ⟨hlong, hsize⟩ := addToPackage_cases hadded
  have hv := UInt32.toNat_ofNat_of_lt' (n := value.length) (by rw [UInt32.size]; omega)
  have hword : q.size.toNat = value.length + 4 := by
    rw [hsize, createPackage, UInt32.zero_add, UInt32.toNat_add, hv]
    simp only [UInt32.reduceToNat]
    omega
  simp only [Envio.tamanio, List.map_cons, List.map_nil, List.sum_cons, List.sum_nil]
  omega

/-! ## Receiving one package -/

section Arrived

variable {c : Bool}

theorem recv_abierta
    (l rest : List UInt8) :
    (Conexion.abierta (l ++ rest) c).recv l.length =
      some (l, Conexion.abierta rest c) := by
  simp [Conexion.recv, Conexion.abierta]

/-- Receiving a word that has arrived. -/
theorem recv_word
    (v : UInt32) (rest : List UInt8) :
    (Conexion.abierta (encode32 v ++ rest) c).recv 4 =
      some (encode32 v, Conexion.abierta rest c) := by
  have h := recv_abierta (c := c) (encode32 v) rest
  rwa [length_encode32] at h

@[simp] theorem decode32_encode32_self (v : UInt32) : decode32 (encode32 v) = some v := by
  simpa using decode32_encode32 v []

theorem wrap32_code (op : OpCode) : wrap32 op.code.toNat = op.code.toNat := by
  apply wrap32_of_lt
  cases op <;> decide

theorem receiveOperationCode_eq
    (op : OpCode) (rest : List UInt8) :
    receiveOperationCode (Conexion.abierta (encode32 op.code ++ rest) c) =
      some ((op.code.toNat : Int), Conexion.abierta rest c) := by
  simp [receiveOperationCode, recv_word, wrap32_code]

theorem receiveBuffer_eq
    (inicial l rest : List UInt8) {n : UInt32}
    (hn : n.toNat = l.length) (hsmall : l.length < 2 ^ 31) :
    receiveBuffer inicial (Conexion.abierta (encode32 n ++ (l ++ rest)) c) =
      some (((l.length : Int), l), Conexion.abierta rest c) := by
  have hsize : wrap32 n.toNat = l.length := by
    rw [hn, wrap32_of_lt hsmall]
  have hpos : ¬ (l.length : Int) < 0 := by
    omega
  rw [receiveBuffer, recv_word, Option.bind_eq_bind, Option.bind_some]
  show (decode32 (encode32 n ++ _) >>= _) = _
  rw [decode32_encode32, Option.bind_eq_bind, Option.bind_some]
  simp only [hsize]
  rw [if_neg hpos, Int.toNat_natCast, recv_abierta]
  rfl

/-- The loop gives back the values of a stream, from any offset on. -/
theorem decodes_receiveValues
    (values : List (List UInt8)) (turnos start size : Nat)
    (hturnos : values.length < turnos)
    (hend : start + (values.flatMap valorEnviado).length = size)
    (hsmall : size < 2 ^ 31) :
    Decodes (receiveValues turnos size) start (values.flatMap valorEnviado) values := by
  induction values generalizing turnos start with
  | nil =>
      obtain ⟨turnos, rfl⟩ := Nat.exists_eq_add_of_lt hturnos
      rw [List.flatMap_nil, List.length_nil, Nat.add_zero] at hend
      apply Decodes.position_bind (by omega)
      rw [if_neg (by omega)]
      exact Decodes.pure _ _
  | cons v values ih =>
      obtain ⟨turnos, rfl⟩ : ∃ n, turnos = n + 1 := ⟨turnos - 1, by omega⟩
      rw [List.flatMap_cons, List.length_append] at hend
      have hlen : (valorEnviado v).length = 4 + v.length := by
        simp [valorEnviado]
      have hv := UInt32.toNat_ofNat_of_lt' (n := v.length) (by rw [UInt32.size]; omega)
      apply Decodes.position_bind (by omega)
      rw [if_pos (by omega), List.flatMap_cons, valorEnviado, List.append_assoc]
      apply Decodes.word_bind (by omega)
      rw [hv, wrap32_of_lt (by omega), if_neg (by omega)]
      apply Decodes.bytes_bind (by omega) rfl
      have hrest := ih turnos (start + 4 + v.length)
        (by simpa using hturnos) (by omega)
      have hcons := hrest.bind (f := fun rest => Pure.pure (v :: rest)) (Decodes.pure (v :: values) _)
      rwa [List.append_nil] at hcons

theorem length_le_flatMap_valorEnviado
    (values : List (List UInt8)) :
    values.length ≤ (values.flatMap valorEnviado).length := by
  induction values with
  | nil =>
      simp
  | cons v values ih =>
      rw [List.flatMap_cons, List.length_append, List.length_cons]
      have hpos : 4 ≤ (valorEnviado v).length := by
        simp [valorEnviado]
      omega

theorem receivePackage_eq
    (values : List (List UInt8)) (rest : List UInt8)
    (hsmall : (values.flatMap valorEnviado).length < 2 ^ 31) :
    receivePackage (Conexion.abierta
        (encode32 (UInt32.ofNat (values.flatMap valorEnviado).length) ++
          (values.flatMap valorEnviado ++ rest)) c) =
      some (values, Conexion.abierta rest c) := by
  have hvalues := decodes_receiveValues values ((values.flatMap valorEnviado).length + 1) 0
    (values.flatMap valorEnviado).length
    (Nat.lt_succ_of_le (length_le_flatMap_valorEnviado values)) (by omega) hsmall
  have hrun := hvalues.run []
  rw [List.append_nil] at hrun
  have hn := UInt32.toNat_ofNat_of_lt' (n := (values.flatMap valorEnviado).length)
    (by rw [UInt32.size]; omega)
  rw [receivePackage, receiveBuffer_eq _ _ _ hn hsmall, Option.bind_eq_bind, Option.bind_some]
  simp only [Int.toNat_natCast, hrun, Option.bind_eq_bind, Option.bind_some]

/-- The code and the values of a package in front of other bytes. -/
theorem receive_envio
    {e : Envio} (rest : List UInt8)
    (h : e.tamanio < 2 ^ 31) :
    ∃ s, receiveOperationCode (Conexion.abierta (e.bytes ++ rest) c) =
        some ((e.operationCode.code.toNat : Int), s) ∧
      receivePackage s = some (e.values, Conexion.abierta rest c) := by
  have hsmall : (e.values.flatMap valorEnviado).length < 2 ^ 31 := by
    rw [Envio.tamanio, ← length_flatMap_valorEnviado] at h
    omega
  rw [Envio.bytes, List.append_assoc, List.append_assoc]
  exact ⟨_, receiveOperationCode_eq e.operationCode _, receivePackage_eq e.values rest hsmall⟩

end Arrived

/-! ## The whole stream -/

theorem mapM_enviar
    (es : List Envio)
    (h : ∀ e ∈ es, e.tamanio < 2 ^ 31) :
    es.mapM Envio.enviar = some (es.map Envio.bytes) := by
  induction es with
  | nil =>
      rfl
  | cons e es ih =>
      rw [List.mapM_cons, Envio.enviar_eq (h e (by simp)), ih (fun f hf => h f (by simp [hf]))]
      rfl

theorem recibir_flatMap
    (es : List Envio) (rest : List UInt8)
    (h : ∀ e ∈ es, e.tamanio < 2 ^ 31) :
    recibir es.length (Conexion.abierta (es.flatMap Envio.bytes ++ rest)) =
      some (es.map (fun e => ((e.operationCode.code.toNat : Int), e.values)),
        Conexion.abierta rest) := by
  induction es with
  | nil =>
      rfl
  | cons e es ih =>
      have hrest := ih (fun f hf => h f (by simp [hf]))
      obtain ⟨s, hcode, hpackage⟩ :=
        receive_envio (es.flatMap Envio.bytes ++ rest) (h e (by simp))
      rw [List.flatMap_cons, List.append_assoc, List.length_cons, recibir, hcode,
        Option.bind_eq_bind, Option.bind_some]
      simp only [hpackage, Option.bind_eq_bind, Option.bind_some, hrest, List.map_cons]

/-- Packages sent one after another on one connection are received as they were
built, and nothing of them is left unread. -/
theorem packages_are_received_as_sent
    (es : List Envio)
    (h : ∀ e ∈ es, e.tamanio < 2 ^ 31) :
    ∃ enviados, es.mapM Envio.enviar = some enviados ∧
      recibir es.length (Conexion.abierta enviados.flatten) =
        some (es.map (fun e => ((e.operationCode.code.toNat : Int), e.values)),
          Conexion.abierta []) := by
  refine ⟨es.map Envio.bytes, mapM_enviar es h, ?_⟩
  have hall := recibir_flatMap es [] h
  rwa [List.append_nil, List.flatMap] at hall

theorem packages_are_received_as_sent_tres :
    ∃ enviados,
      [⟨.message, [[1, 2], []]⟩, ⟨.io, []⟩, ⟨.message, [[3]]⟩].mapM Envio.enviar =
          some enviados ∧
        recibir 3 (Conexion.abierta enviados.flatten) =
          some ([(2, [[1, 2], []]), (7, []), (2, [[3]])], Conexion.abierta []) :=
  packages_are_received_as_sent
    [⟨.message, [[1, 2], []]⟩, ⟨.io, []⟩, ⟨.message, [[3]]⟩] (by decide)

end Utils
end SinIdeas
