import Mathlib.Algebra.Group.Nat.Defs
import Mathlib.Algebra.Order.BigOperators.Group.List
import SinIdeas.Lib.Runs
import SinIdeas.Lib.FixedBuffer
import SinIdeas.Memoria.Requests

/-!
# The summary of the partitions

After every request that can change the partitions, `print_partitions_summary` puts the
whole list in an array of 1024 characters. Nothing limits the number of partitions:
`partition_summary_fits_iff` says which lists fit.
-/

namespace SinIdeas
namespace Memoria

open Lib

/-- `%d` of a word. -/
def decimal (v : UInt32) : List Char :=
  if v < 2147483648 then Nat.toDigits 10 v.toNat
  else '-' :: Nat.toDigits 10 (4294967296 - v.toNat)

/-- The formats `"%d ( )"` and `"%d (%d)"`. -/
def textoDe (p : MemPartition) : List Char :=
  if p.isFree then decimal p.size ++ [' ', '(', ' ', ')']
  else decimal p.size ++ [' ', '('] ++ decimal p.pid ++ [')']

/-- `partition_info`, an array of 64 characters. -/
def partitionInfo (p : MemPartition) : List Char := snprintf 64 (textoDe p)

/-- `"Partition Summary: "`. -/
def encabezado : List Char :=
  ['P', 'a', 'r', 't', 'i', 't', 'i', 'o', 'n', ' ', 'S', 'u', 'm', 'm', 'a', 'r', 'y', ':', ' ']

/-- `print_partitions_summary`: the string in `summary`, an array of 1024 characters;
`none` when a `strcat` leaves the array. -/
def printPartitionsSummary (l : List MemPartition) : Option (List Char) :=
  strcatAll 1024 [',', ' '] (l.map partitionInfo) encabezado

/-- The requests after which `handle_client` prints the summary. -/
def Peticion.resume : Peticion → Bool
  | .processCreate .. => true
  | .processExit .. => true
  | .threadCreate .. => true
  | .threadExit .. => true
  | _ => false

/-- One round of `handle_client` with its summary. -/
def atiendeYResume (cfg : Config) (g : Globals) (p : Peticion) : Option Globals := do
  let g' ← atiende cfg g p
  if p.resume then
    let _ ← printPartitionsSummary g'.partitionList
    some g'
  else
    some g'

/-- The summary of the list fits in its array with its end, and no entry is cut. -/
structure ResumenCabe (l : List MemPartition) : Prop where
  cabe : ∃ s, printPartitionsSummary l = some s ∧
    s = encabezado ++ [',', ' '].intercalate (l.map textoDe) ∧ s.length + 1 ≤ 1024
  enteras : ∀ p ∈ l, partitionInfo p = textoDe p

/-- The room that a partition takes in the summary, with a separator: its numbers, and six
more characters if it is free, five if it is occupied. -/
def MemPartition.ancho (p : MemPartition) : Nat :=
  if p.isFree then (decimal p.size).length + 6
  else (decimal p.size).length + (decimal p.pid).length + 5

/-- The partitions take at most 1006 characters. -/
def ResumenBreve (l : List MemPartition) : Prop := (l.map MemPartition.ancho).sum ≤ 1006

instance (l : List MemPartition) : Decidable (ResumenBreve l) :=
  inferInstanceAs (Decidable (_ ≤ _))

/-- If the request prints a summary, the partitions that it leaves take little room. -/
def DejaBreve (cfg : Config) (g : Globals) (p : Peticion) : Prop :=
  p.resume = true → ∀ g', atiende cfg g p = some g' → ResumenBreve g'.partitionList

section Text

variable {l : List MemPartition} {p : MemPartition}

theorem length_decimal_le (v : UInt32) : (decimal v).length ≤ 11 := by
  have hlt := v.toNat_lt
  unfold decimal
  split_ifs with h
  · have hsmall : v.toNat < 10 ^ 10 := by omega
    have hdigits := (Nat.length_toDigits_le_iff (b := 10) (k := 10) (by omega) (by omega)).mpr hsmall
    omega
  · have hsmall : 4294967296 - v.toNat < 10 ^ 10 := by omega
    have hdigits := (Nat.length_toDigits_le_iff (b := 10) (k := 10) (by omega) (by omega)).mpr hsmall
    rw [List.length_cons]
    omega

theorem length_decimal_pos (v : UInt32) : 0 < (decimal v).length := by
  unfold decimal
  split_ifs
  · exact Nat.length_toDigits_pos
  · exact Nat.succ_pos _

/-- The room of a partition is its text and a separator. -/
theorem length_textoDe (p : MemPartition) : (textoDe p).length + 2 = p.ancho := by
  unfold textoDe MemPartition.ancho
  split_ifs
  · rw [List.length_append]
    rfl
  · simp only [List.length_append, List.length_cons, List.length_nil]
    omega

theorem ancho_le (p : MemPartition) : p.ancho ≤ 27 := by
  have hsize := length_decimal_le p.size
  have hpid := length_decimal_le p.pid
  unfold MemPartition.ancho
  split_ifs <;> omega

theorem le_ancho (p : MemPartition) : 7 ≤ p.ancho := by
  have hsize := length_decimal_pos p.size
  have hpid := length_decimal_pos p.pid
  unfold MemPartition.ancho
  split_ifs <;> omega

/-- No entry is cut. -/
theorem partitionInfo_eq (p : MemPartition) : partitionInfo p = textoDe p := by
  have hancho := ancho_le p
  rw [← length_textoDe] at hancho
  exact snprintf_of_lt (by omega)

/-- The summary is appended at once. -/
theorem printPartitionsSummary_eq (l : List MemPartition) :
    printPartitionsSummary l =
      strcat 1024 encabezado ([',', ' '].intercalate (l.map textoDe)) := by
  have hinfo : l.map partitionInfo = l.map textoDe :=
    List.map_congr_left (fun p _ => partitionInfo_eq p)
  rw [printPartitionsSummary, hinfo]
  exact strcatAll_eq _ (by decide)

/-- The string fits exactly when the partitions take little room. -/
theorem length_resumen_iff (l : List MemPartition) :
    encabezado.length + ([',', ' '].intercalate (l.map textoDe)).length < 1024 ↔
      ResumenBreve l := by
  have hencabezado : encabezado.length = 19 := rfl
  have hsum : (l.map MemPartition.ancho).sum =
      ((l.map textoDe).map (fun s => s.length + [',', ' '].length)).sum := by
    rw [List.map_map]
    congr 1
    exact List.map_congr_left (fun p _ => (length_textoDe p).symm)
  unfold ResumenBreve
  rw [hsum, hencabezado]
  cases l with
  | nil =>
      decide
  | cons p l =>
      rw [← length_intercalate_add (by simp)]
      simp only [List.length_cons, List.length_nil]
      omega

/-- Few partitions always fit. -/
theorem resumenBreve_of_length_le
    (h : l.length ≤ 37) :
    ResumenBreve l := by
  have hsum : (l.map MemPartition.ancho).sum ≤ (l.map MemPartition.ancho).length • 27 := by
    refine List.sum_le_card_nsmul _ _ ?_
    intro n hn
    obtain ⟨p, _, rfl⟩ := List.mem_map.mp hn
    exact ancho_le p
  rw [List.length_map, Nat.nsmul_eq_mul] at hsum
  unfold ResumenBreve
  omega

/-- Many partitions never fit. -/
theorem length_le_of_resumenBreve
    (h : ResumenBreve l) :
    l.length ≤ 143 := by
  have hsum : (l.map MemPartition.ancho).length • 7 ≤ (l.map MemPartition.ancho).sum := by
    refine List.card_nsmul_le_sum _ _ ?_
    intro n hn
    obtain ⟨p, _, rfl⟩ := List.mem_map.mp hn
    exact le_ancho p
  rw [List.length_map, Nat.nsmul_eq_mul] at hsum
  unfold ResumenBreve at h
  omega

theorem printPartitionsSummary_isSome_iff (l : List MemPartition) :
    (∃ s, printPartitionsSummary l = some s) ↔ ResumenBreve l := by
  rw [printPartitionsSummary_eq, ← length_resumen_iff]
  unfold strcat
  split_ifs with h
  · exact iff_of_true ⟨_, rfl⟩ h
  · exact iff_of_false (by simp) h

theorem resumenCabe_of_breve
    (h : ResumenBreve l) :
    ResumenCabe l := by
  have hfits := (length_resumen_iff l).mpr h
  refine ⟨⟨_, ?_, rfl, ?_⟩, fun p _ => partitionInfo_eq p⟩
  · rw [printPartitionsSummary_eq]
    exact strcat_of_lt hfits
  · rw [List.length_append]
    omega

theorem ResumenCabe.breve
    (h : ResumenCabe l) :
    ResumenBreve l := by
  obtain ⟨s, hs, _⟩ := h.cabe
  exact (printPartitionsSummary_isSome_iff l).mp ⟨s, hs⟩

/-- A request is attended with its summary when the partitions it leaves take little
room. -/
theorem atiendeYResume_iff
    {cfg : Config} {g g' : Globals} {p : Peticion} :
    atiendeYResume cfg g p = some g' ↔ DejaBreve cfg g p ∧ atiende cfg g p = some g' := by
  unfold atiendeYResume DejaBreve
  cases hstep : atiende cfg g p with
  | none =>
      simp
  | some g₁ =>
      cases hresume : p.resume with
      | false =>
          simp
      | true =>
          simp only [Option.bind_eq_bind, Option.bind_some, if_true, Option.bind_eq_some_iff,
            Option.some.injEq, forall_const, forall_eq', ← printPartitionsSummary_isSome_iff]
          exact ⟨fun ⟨s, hs, heq⟩ => ⟨⟨s, hs⟩, heq⟩, fun ⟨⟨s, hs⟩, heq⟩ => ⟨s, hs, heq⟩⟩

end Text

/-- The summary of a list fits exactly when its partitions take at most 1006 characters,
and the summaries fit all along a sequence of requests exactly when every request that
prints one leaves such a list. -/
theorem partition_summary_fits_iff
    (l : List MemPartition) (cfg : Config) (peticiones : List Peticion) (g : Globals) :
    (ResumenCabe l ↔ ResumenBreve l) ∧
    (Run (fun g p g' => atiendeYResume cfg g p = some g') Regular (inicializar cfg) peticiones g ↔
      Run (fun g p g' => atiende cfg g p = some g') (fun g p => DejaBreve cfg g p ∧ Regular g p)
        (inicializar cfg) peticiones g) := by
  constructor
  · exact ⟨ResumenCabe.breve, resumenCabe_of_breve⟩
  · simp only [atiendeYResume_iff]
    exact Run.and_guard.symm

theorem length_staticPartitions (base : UInt32) (sizes : List UInt32) :
    (staticPartitions base sizes).length = sizes.length := by
  induction sizes generalizing base with
  | nil =>
      rfl
  | cons size sizes ih =>
      rw [staticPartitions, List.length_cons, List.length_cons, ih]

/-- A memory of 1024 bytes with 144 partitions of one byte. -/
def configDeUnByte : Config where
  esquema := .fijas
  algoritmoBusqueda := .first
  tamMemoria := 1024
  particiones := List.replicate 144 1
  scripts := fun _ => none
  listSort := fun _ l => l

/-- The summary of 144 free partitions of one byte leaves its array. -/
theorem partition_summary_overflows :
    ¬ ∀ (cfg : Config) (peticiones : List Peticion) (g : Globals),
        Run (fun g p g' => atiende cfg g p = some g') Regular (inicializar cfg) peticiones g →
        ResumenCabe g.partitionList := by
  intro hclaim
  have hcabe := hclaim configDeUnByte [] _ Run.nil
  have hle := length_le_of_resumenBreve hcabe.breve
  have hlength : (inicializar configDeUnByte).partitionList.length = 144 :=
    (length_staticPartitions 0 _).trans List.length_replicate
  omega

end Memoria
end SinIdeas
