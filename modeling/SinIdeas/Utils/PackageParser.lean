import SinIdeas.Utils.Paquetes

/-!
# The package parser on any bytes

`receive_package` walks the buffer it received by the lengths that it finds in it.
Its loop looks at the offset before it reads a length, not at what is left after it,
so the bytes of the peer decide where it reads.
-/

namespace SinIdeas
namespace Utils

open Lib

/-- The loop of `receive_package` ends after some turns, and every byte it has copied is
one of the buffer. -/
def LecturaSegura (buffer : List UInt8) : Prop :=
  ∃ turnos values leidos,
    (receiveValues turnos buffer.length).run buffer = some (values, leidos) ∧
      ∀ i ∈ leidos, i < buffer.length

/-- The buffer is a sequence of elements: a length that is not negative as an `int`, and
as many bytes. -/
def EsSecuencia (buffer : List UInt8) : Prop :=
  ∃ values : List (List UInt8), buffer = values.flatMap valorEnviado ∧
    ∀ v ∈ values, v.length < 2 ^ 31

section Parser

variable {buffer : List UInt8}

/-- One turn that stays inside the buffer has read the element that stands at its offset. -/
theorem valor_eq_some
    {start : Nat} {leidos : List Nat} {n : UInt32} {value : List UInt8} {r₁ r₂ : Cursor}
    (hsmall : buffer.length < 2 ^ 31)
    (hword : Decoder.word buffer { offset := start, visited := leidos } = some (n, r₁))
    (hneg : ¬ wrap32 n.toNat < 0)
    (hbytes : Decoder.bytes n.toNat buffer r₁ = some (value, r₂)) :
    ∃ (stop : Nat) (leidos' : List Nat), r₂ = { offset := stop, visited := leidos' } ∧
      stop ≤ buffer.length ∧ value.length < 2 ^ 31 ∧
      buffer.drop start = valorEnviado value ++ buffer.drop stop := by
  obtain ⟨_, hinside, hn, rfl⟩ := Decoder.word_eq_some hword
  simp only [Int.toNat_natCast] at hinside hn hbytes
  have hnext : wrap32 ((start : Int) + 4) = ((start + 4 : Nat) : Int) := by
    rw [← wrap32_of_lt (n := start + 4) (by omega)]
    rfl
  rw [hnext] at hbytes
  have hn31 : n.toNat < 2 ^ 31 := by
    by_contra hbig
    exact hneg (wrap32_neg (not_lt.mp hbig) n.toNat_lt)
  obtain ⟨_, hfits, hval, rfl⟩ := Decoder.bytes_eq_some hbytes
  simp only [Int.toNat_natCast] at hfits hval
  have hlength : value.length = n.toNat := Decoder.bytes_length hbytes
  have hlast : wrap32 (((start + 4 : Nat) : Int) + n.toNat) =
      ((start + 4 + n.toNat : Nat) : Int) := by
    rw [← wrap32_of_lt (n := start + 4 + n.toNat) (by omega)]
    rfl
  have helement : valorEnviado value = encode32 n ++ value := by
    rw [valorEnviado, hlength, UInt32.ofNat_toNat]
  have hafter := (List.take_append_drop n.toNat (buffer.drop (start + 4))).symm
  rw [← hval, List.drop_drop] at hafter
  have hsplit := (List.take_append_drop 4 (buffer.drop start)).symm
  rw [← hn, List.drop_drop, hafter] at hsplit
  refine ⟨start + 4 + n.toNat, _, by rw [hlast], hfits, by omega, ?_⟩
  rw [helement, List.append_assoc, hsplit]

/-- What the loop has read from an offset on is a sequence of elements. -/
theorem receiveValues_eq_some
    {turnos start : Nat} {leidos : List Nat} {values : List (List UInt8)} {r : Cursor}
    (hsmall : buffer.length < 2 ^ 31)
    (hstart : start ≤ buffer.length)
    (h : receiveValues turnos buffer.length buffer { offset := start, visited := leidos } =
      some (values, r)) :
    buffer.drop start = values.flatMap valorEnviado ∧ ∀ v ∈ values, v.length < 2 ^ 31 := by
  induction turnos generalizing start leidos values r with
  | zero =>
      cases h
  | succ turnos ih =>
      simp only [receiveValues, Decoder.bind_apply, Decoder.position, Option.bind_some] at h
      by_cases hlt : (start : Int) < buffer.length
      · rw [if_pos hlt] at h
        obtain ⟨⟨n, r₁⟩, hword, hvalue⟩ := Option.bind_eq_some_iff.mp h
        dsimp only at hvalue
        by_cases hneg : wrap32 n.toNat < 0
        · rw [if_pos hneg] at hvalue
          cases hvalue
        · rw [if_neg hneg] at hvalue
          obtain ⟨⟨value, r₂⟩, hbytes, hrest⟩ := Option.bind_eq_some_iff.mp hvalue
          obtain ⟨stop, leidos', rfl, hstop, hlength, hdrop⟩ :=
            valor_eq_some hsmall hword hneg hbytes
          obtain ⟨⟨vs, r₃⟩, hvs, hpure⟩ := Option.bind_eq_some_iff.mp hrest
          cases hpure
          obtain ⟨hdrops, hall⟩ := ih hstop hvs
          refine ⟨by rw [List.flatMap_cons, ← hdrops, hdrop], ?_⟩
          intro v hv
          rcases List.mem_cons.mp hv with rfl | hv
          · exact hlength
          · exact hall v hv
      · rw [if_neg hlt] at h
        cases h
        refine ⟨?_, by simp⟩
        rw [List.flatMap_nil]
        exact List.drop_eq_nil_of_le (by omega)

theorem LecturaSegura.esSecuencia
    (hsmall : buffer.length < 2 ^ 31)
    (h : LecturaSegura buffer) :
    EsSecuencia buffer := by
  obtain ⟨turnos, _, _, hrun, _⟩ := h
  obtain ⟨⟨values, r⟩, hloop, _⟩ := Option.map_eq_some_iff.mp hrun
  have hzero : receiveValues turnos buffer.length buffer
      { offset := ((0 : Nat) : Int), visited := [] } = some (values, r) := hloop
  exact ⟨values, receiveValues_eq_some hsmall (Nat.zero_le _) hzero⟩

theorem EsSecuencia.lecturaSegura
    (hsmall : buffer.length < 2 ^ 31)
    (h : EsSecuencia buffer) :
    LecturaSegura buffer := by
  obtain ⟨values, rfl, _⟩ := h
  have hvalues := decodes_receiveValues values (values.length + 1) 0
    (values.flatMap valorEnviado).length (Nat.lt_succ_self _) (Nat.zero_add _) hsmall
  have hrun := hvalues.run []
  rw [List.append_nil] at hrun
  exact ⟨_, values, _, hrun, fun i hi => List.mem_range.mp hi⟩

/-- Whatever follows it on the connection, a buffer that arrives is read to its end, within
as many turns as it has bytes, or `receive_package` leaves it. -/
theorem receivePackage_isSome_iff
    (rest : List UInt8)
    (hsmall : buffer.length < 2 ^ 31) :
    (receivePackage (Conexion.abierta
      (encode32 (UInt32.ofNat buffer.length) ++ (buffer ++ rest)))).isSome = true ↔
        EsSecuencia buffer := by
  have hn := UInt32.toNat_ofNat_of_lt' (n := buffer.length) (by rw [UInt32.size]; omega)
  constructor
  · intro h
    obtain ⟨out, hout⟩ := Option.isSome_iff_exists.mp h
    rw [receivePackage, receiveBuffer_eq _ _ _ hn hsmall, Option.bind_eq_bind,
      Option.bind_some] at hout
    obtain ⟨⟨values, leidos⟩, hrun, _⟩ := Option.bind_eq_some_iff.mp hout
    obtain ⟨⟨values, r⟩, hloop, _⟩ := Option.map_eq_some_iff.mp hrun
    have hzero : receiveValues ((buffer.length : Int).toNat + 1) buffer.length buffer
        { offset := ((0 : Nat) : Int), visited := [] } = some (values, r) := hloop
    exact ⟨values, receiveValues_eq_some hsmall (Nat.zero_le _) hzero⟩
  · rintro ⟨values, rfl, _⟩
    rw [receivePackage_eq values rest hsmall]
    rfl

end Parser

/-- The loop ends and stays inside the buffer exactly on a sequence of elements. -/
theorem package_parser_is_safe_iff
    (buffer : List UInt8)
    (hsize : buffer.length < 2 ^ 31) :
    LecturaSegura buffer ↔ EsSecuencia buffer :=
  ⟨LecturaSegura.esSecuencia hsize, EsSecuencia.lecturaSegura hsize⟩

theorem package_parser_is_safe_two :
    LecturaSegura [2, 0, 0, 0, 7, 8, 0, 0, 0, 0] :=
  (package_parser_is_safe_iff [2, 0, 0, 0, 7, 8, 0, 0, 0, 0] (by decide)).mpr
    ⟨[[7, 8], []], by decide, by decide⟩

/-- A buffer of one byte has no room for the length that is read from it. -/
theorem one_byte_is_read_as_four :
    ¬ LecturaSegura [0] := by
  intro h
  obtain ⟨values, hvalues, _⟩ := h.esSecuencia (by decide)
  cases values with
  | nil =>
      cases hvalues
  | cons v values =>
      have hlength := congrArg List.length hvalues
      rw [List.flatMap_cons, valorEnviado, List.length_append, List.length_append,
        length_encode32, List.length_singleton] at hlength
      omega

end Utils
end SinIdeas
