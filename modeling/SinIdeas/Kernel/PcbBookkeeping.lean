import Mathlib.Data.List.InsertIdx
import SinIdeas.Lib.Runs
import SinIdeas.Kernel.Dispatch

/-!
# The threads of a PCB

A PCB keeps its threads in two arrays, `TID` with `tid_count` and `tcbs` with
`num_tcbs`. Threads are added and removed in both of them, and THREAD_EXIT counts one
less in `tid_count` alone: from then on the loops that end the process stop one thread
short, whichever thread left.
-/

namespace SinIdeas
namespace Kernel

open Lib

/-- `create_pcb`. -/
def createPcb (pid size : Nat) : Pcb where
  pid := pid
  state := .new
  tids := []
  tidCount := 0
  mutex := []
  mutexCount := 0
  tcbs := []
  numTcbs := 0
  size := size

/-- The TCB that `create_thread` makes for a PCB. -/
def hiloDePcb (pcb : Pcb) (dir : Nat) (path : List Char) (priority : Nat) : Tcb where
  dir := dir
  tid := pcb.tidCount
  parentPid := pcb.pid
  priority := priority
  state := .new
  filePath := path

/-- `remove_tcb_from_pcb`; `none` when its loop leaves the array. -/
def removeTcbFromPcb (tid : Nat) (pcb : Pcb) : Option Pcb :=
  if pcb.tids.length < pcb.tidCount then none
  else
    match (pcb.tids.take pcb.tidCount).findIdx? (fun t => t == tid) with
    | none => some pcb
    | some index =>
        some { pcb with
          tids := (pcb.tids.take pcb.tidCount).eraseIdx index
          tidCount := pcb.tidCount - 1
          tcbs := pcb.tcbs.eraseIdx index
          numTcbs := pcb.numTcbs - 1 }

/-- `parent_pcb->tid_count--` of THREAD_EXIT, in 32 bits. -/
def descontarTid (pcb : Pcb) : Pcb :=
  { pcb with tidCount := (pcb.tidCount + 4294967295) % 4294967296 }

/-- The entries that the loops of the end of a process visit. -/
def visitados (pcb : Pcb) : List (Option Tcb) :=
  (List.range pcb.tidCount).map (fun i => pcb.tcbs[i]?)

/-- A PCB and its threads that have neither exited nor been removed, in the order of
their creation. -/
structure HilosPcb where
  pcb : Pcb
  vivos : List Tcb
  nextDir : Nat
  deriving DecidableEq

/-- What changes the threads of a PCB. -/
inductive EventoPcb where
  | createThread (path : List Char) (priority : Nat)
  | removeTcb (tid : Nat)
  | threadExit (tcb : Tcb)
  deriving DecidableEq

/-- One event; a thread that exits is alive. -/
def pasoPcb (s : HilosPcb) : EventoPcb → Option HilosPcb
  | .createThread path priority =>
      if s.pcb.tidCount ≤ s.pcb.tids.length then
        let tcb := hiloDePcb s.pcb s.nextDir path priority
        some
          { pcb := addTcbToPcb tcb s.pcb
            vivos := s.vivos ++ [tcb]
            nextDir := s.nextDir + 1 }
      else none
  | .removeTcb tid =>
      (removeTcbFromPcb tid s.pcb).map (fun pcb =>
        { s with pcb, vivos := s.vivos.eraseP (fun t => t.tid == tid) })
  | .threadExit tcb =>
      if tcb ∈ s.vivos then
        some { s with pcb := descontarTid s.pcb, vivos := s.vivos.erase tcb }
      else none

/-- A process without threads. -/
def sinHilos (pid size nextDir : Nat) : HilosPcb where
  pcb := createPcb pid size
  vivos := []
  nextDir := nextDir

/-- The event is not a THREAD_EXIT. -/
def SinThreadExit : HilosPcb → EventoPcb → Prop
  | _, .threadExit _ => False
  | _, _ => True

/-- Both arrays have exactly the live threads, once each and in the order of their
creation, and so do the loops that end the process. -/
structure PcbAlDia (s : HilosPcb) : Prop where
  cuentas : s.pcb.tidCount = s.pcb.numTcbs
  tids : ∀ i < s.pcb.tidCount, s.pcb.tids[i]? = (s.pcb.tcbs[i]?).map Tcb.tid
  vivos : visitados s.pcb = s.vivos.map some
  orden : s.vivos.Pairwise (fun a b => a.dir < b.dir)

/-- The arrays are the live threads, and their counters its length. -/
structure HilosAlineados (s : HilosPcb) : Prop where
  tids : s.pcb.tids = s.vivos.map Tcb.tid
  tidCount : s.pcb.tidCount = s.vivos.length
  tcbs : s.pcb.tcbs = s.vivos
  numTcbs : s.pcb.numTcbs = s.vivos.length
  orden : s.vivos.Pairwise (fun a b => a.dir < b.dir)
  menores : ∀ t ∈ s.vivos, t.dir < s.nextDir

section Steps

variable {s s' : HilosPcb}

/-- The first entries of an array, read one by one. -/
theorem map_getElem?_range
    {α : Type} {l : List α} {n : Nat}
    (hn : n ≤ l.length) :
    (List.range n).map (fun i => l[i]?) = (l.take n).map some := by
  refine List.ext_getElem (by simp [hn]) ?_
  intro i hi hi'
  have hlt : i < n := by simpa using hi
  simp [List.getElem?_eq_getElem (show i < l.length by omega)]

theorem HilosAlineados.pcbAlDia
    (hs : HilosAlineados s) :
    PcbAlDia s := by
  constructor
  · rw [hs.tidCount, hs.numTcbs]
  · intro i _
    rw [hs.tids, hs.tcbs, List.getElem?_map]
  · rw [visitados, hs.tidCount, hs.tcbs, map_getElem?_range le_rfl, List.take_length]
  · exact hs.orden

theorem hilosAlineados_sinHilos (pid size nextDir : Nat) :
    HilosAlineados (sinHilos pid size nextDir) := by
  constructor
  · rfl
  · rfl
  · rfl
  · rfl
  · exact List.Pairwise.nil
  · intro t ht
    cases ht

theorem HilosAlineados.take_tids
    (hs : HilosAlineados s) :
    s.pcb.tids.take s.pcb.tidCount = s.vivos.map Tcb.tid := by
  rw [hs.tids, hs.tidCount, List.take_of_length_le (by simp)]

/-- A new thread goes at the end of both arrays. -/
theorem HilosAlineados.createThread
    {path : List Char} {priority : Nat}
    (hs : HilosAlineados s)
    (h : pasoPcb s (.createThread path priority) = some s') :
    HilosAlineados s' := by
  simp only [pasoPcb] at h
  split at h
  · cases h
    constructor
    · simp [addTcbToPcb, hs.take_tids]
    · simp [addTcbToPcb, hs.tidCount]
    · simp [addTcbToPcb, hs.tcbs]
    · simp [addTcbToPcb, hs.numTcbs]
    · rw [List.pairwise_append]
      refine ⟨hs.orden, List.pairwise_singleton _ _, ?_⟩
      intro a ha b hb
      rw [List.mem_singleton.mp hb]
      exact hs.menores a ha
    · intro t ht
      rcases List.mem_append.mp ht with ht | ht
      · exact (hs.menores t ht).trans (Nat.lt_succ_self _)
      · rw [List.mem_singleton.mp ht]
        exact Nat.lt_succ_self _
  · cases h

/-- The thread is removed at the index of its TID, in both arrays. -/
theorem HilosAlineados.removeTcbFromPcb_eq
    (hs : HilosAlineados s)
    (tid : Nat) :
    removeTcbFromPcb tid s.pcb =
      match s.vivos.findIdx? (fun t => t.tid == tid) with
      | none => some s.pcb
      | some index =>
          some { s.pcb with
            tids := (s.vivos.eraseIdx index).map Tcb.tid
            tidCount := s.vivos.length - 1
            tcbs := s.vivos.eraseIdx index
            numTcbs := s.vivos.length - 1 } := by
  have hlen : ¬ s.pcb.tids.length < s.pcb.tidCount := by
    rw [hs.tids, hs.tidCount, List.length_map]
    exact lt_irrefl _
  unfold removeTcbFromPcb
  rw [if_neg hlen, hs.take_tids, List.findIdx?_map]
  simp only [List.eraseIdx_map, hs.tidCount, hs.tcbs, hs.numTcbs]
  rfl

theorem HilosAlineados.removeTcb
    {tid : Nat}
    (hs : HilosAlineados s)
    (h : pasoPcb s (.removeTcb tid) = some s') :
    HilosAlineados s' := by
  obtain ⟨pcb, hpcb, rfl⟩ := Option.map_eq_some_iff.mp h
  have horden := hs.orden.sublist (List.eraseP_sublist (p := fun t => t.tid == tid))
  have hmenores : ∀ t ∈ s.vivos.eraseP (fun t => t.tid == tid), t.dir < s.nextDir := by
    intro t ht
    exact hs.menores t (List.mem_of_mem_eraseP ht)
  rw [List.eraseP_eq_eraseIdx] at horden hmenores ⊢
  rw [hs.removeTcbFromPcb_eq tid] at hpcb
  cases hfind : s.vivos.findIdx? (fun t => t.tid == tid) with
  | none =>
      simp only [hfind, Option.some.injEq] at hpcb horden hmenores ⊢
      subst hpcb
      exact ⟨hs.tids, hs.tidCount, hs.tcbs, hs.numTcbs, horden, hmenores⟩
  | some index =>
      simp only [hfind, Option.some.injEq] at hpcb horden hmenores ⊢
      subst hpcb
      have hlt : index < s.vivos.length := (List.findIdx?_eq_some_iff_getElem.mp hfind).1
      have hlen := List.length_eraseIdx_of_lt hlt
      exact ⟨rfl, hlen.symm, rfl, hlen.symm, horden, hmenores⟩

/-- THREAD_EXIT leaves the counters apart. -/
theorem HilosAlineados.threadExit
    {tcb : Tcb}
    (hs : HilosAlineados s)
    (h : pasoPcb s (.threadExit tcb) = some s') :
    s'.pcb.tidCount ≠ s'.pcb.numTcbs := by
  simp only [pasoPcb] at h
  split at h
  · rename_i hmem
    cases h
    have hpos := List.length_pos_of_mem hmem
    simp only [descontarTid, hs.tidCount, hs.numTcbs]
    omega
  · cases h

/-- After the first THREAD_EXIT the loops that end the process visit all the threads but
the last one created, whichever left. -/
theorem visitados_threadExit
    {tcb : Tcb}
    (hs : HilosAlineados s)
    (hwords : s.vivos.length < 4294967296)
    (h : pasoPcb s (.threadExit tcb) = some s') :
    visitados s'.pcb = s.vivos.dropLast.map some := by
  simp only [pasoPcb] at h
  split at h
  · rename_i hmem
    cases h
    have hpos := List.length_pos_of_mem hmem
    have hcount : (s.vivos.length + 4294967295) % 4294967296 = s.vivos.length - 1 := by omega
    simp only [visitados, descontarTid, hs.tidCount, hs.tcbs, hcount]
    rw [map_getElem?_range (Nat.sub_le _ _), List.dropLast_eq_take]
  · cases h

end Steps

section Handlers

variable {μ : Type} {cfg : Config μ} {k k' : Globals μ}

/-- A process starts without threads. -/
theorem createProcess_pcb
    (k : Globals μ) (size : Nat) :
    (createProcess k size).pcbs k.globalPid = createPcb k.globalPid size :=
  Function.update_self _ _ _

/-- `create_thread` adds the thread to its PCB. -/
theorem createThread_pcb
    {pid : Nat}
    (cfg : Config μ) (path : List Char) (priority : Nat)
    (hpid : (k.pcbs pid).pid = pid) :
    (Kernel.createThread cfg k pid path priority).1.pcbs pid =
      addTcbToPcb (hiloDePcb (k.pcbs pid) k.nextDir path priority) (k.pcbs pid) := by
  rw [createThread_resto]
  simp only [Function.update_self, nuevoTcb, hiloDePcb, hpid]

/-- THREAD_EXIT counts one thread less in the PCB of an active process, and changes nothing
else in it. -/
theorem threadExit_pcb
    {tcb : Tcb}
    (hactive : tcb.parentPid ∈ k.listPcbActive)
    (hpos : 0 < (k.pcbs tcb.parentPid).tidCount)
    (hwords : (k.pcbs tcb.parentPid).tidCount < 4294967296)
    (h : Kernel.threadExit cfg tcb k = some k') :
    k'.pcbs tcb.parentPid = descontarTid (k.pcbs tcb.parentPid) := by
  have hfind : findPcbByPid k tcb.parentPid = some tcb.parentPid := by
    cases hfind : findPcbByPid k tcb.parentPid with
    | none =>
        exact absurd (List.find?_eq_none.mp hfind _ hactive) (by simp)
    | some q =>
        rw [(findPcbByPid_some hfind).1]
  have hcount : (k.pcbs tcb.parentPid).tidCount - 1 =
      ((k.pcbs tcb.parentPid).tidCount + 4294967295) % 4294967296 := by omega
  have hdescontar : ∀ a : Globals μ, a.pcbs = k.pcbs → a.listPcbActive = k.listPcbActive →
      (descontarHilo tcb.parentPid a).pcbs tcb.parentPid =
        descontarTid (k.pcbs tcb.parentPid) := by
    intro a hpcbs hlist
    have hfind' : findPcbByPid a tcb.parentPid = some tcb.parentPid := by
      rw [← hfind, findPcbByPid, findPcbByPid, hlist]
    simp only [descontarHilo, hfind', modificarPcb, Function.update_self, descontarTid, hpcbs,
      hcount]
  unfold Kernel.threadExit at h
  have hwake := unlockTcbJoins_despierta.trans (releaseAllMutexes_despierta h)
  rw [hwake]
  exact hdescontar _ rfl rfl

end Handlers

/-- The two arrays of a PCB list exactly its live threads as long as none of them has run
THREAD_EXIT, and no longer. -/
theorem pcb_lists_live_threads_iff
    (pid size nextDir : Nat) (es : List EventoPcb) (s : HilosPcb) :
    Run (fun a e b => pasoPcb a e = some b) SinThreadExit (sinHilos pid size nextDir) es s ↔
      Run (fun a e b => pasoPcb a e = some b) (fun a _ => PcbAlDia a)
        (sinHilos pid size nextDir) es s ∧ PcbAlDia s := by
  refine Run.guarded_iff_of_strong (hilosAlineados_sinHilos pid size nextDir)
    HilosAlineados.pcbAlDia ?_ ?_
  · intro a b e ha hstep hok
    cases e with
    | createThread path priority =>
        exact ha.createThread hstep
    | removeTcb tid =>
        exact ha.removeTcb hstep
    | threadExit tcb =>
        exact hok.elim
  · intro a b e ha hstep hno hb
    cases e with
    | createThread path priority =>
        exact hno trivial
    | removeTcb tid =>
        exact hno trivial
    | threadExit tcb =>
        exact ha.threadExit hstep hb.cuentas

/-- When the first of two threads exits, the PCB counts one thread and keeps two. -/
theorem thread_exit_misaligns_pcb :
    ¬ ∀ (pid size nextDir : Nat) (es : List EventoPcb) (s : HilosPcb),
        Run (fun a e b => pasoPcb a e = some b) anyLabel (sinHilos pid size nextDir) es s →
        PcbAlDia s := by
  intro hclaim
  have hrun : Run (fun a e b => pasoPcb a e = some b) anyLabel (sinHilos 0 64 0)
      [.createThread ['p'] 0, .createThread ['h'] 0,
        .threadExit (hiloDePcb (createPcb 0 64) 0 ['p'] 0)] _ :=
    run_of_isSome pasoPcb id (by decide) (by decide)
  exact absurd (hclaim _ _ _ _ _ hrun).cuentas (by decide)

end Kernel
end SinIdeas
