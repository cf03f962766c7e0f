import SinIdeas.Kernel.ThreadPlaces

/-!
# The identifiers of threads

A new thread gets `tid_count` as its TID, and THREAD_EXIT lowers the counter. The
TIDs of a process stay unique as long as no thread is created while one that lives
has the TID that the counter shows, and then every lookup finds the thread it is for.
-/

namespace SinIdeas
namespace Kernel

open Lib

variable {μ : Type}

/-- The identifiers of the thread that the event creates. -/
def tidNuevo (k : Globals μ) : Evento → Option (Nat × Nat)
  | .respuesta (.threadCreate _ _) => do
      let _ ← k.fase.ejecutando?
      let pid ← k.currentPcbExecuting
      some (pid, (k.pcbs pid).tidCount)
  | _ => none

/-- The event creates no thread with the identifiers of one that lives. -/
def TidLibre (k : Globals μ) (e : Evento) : Prop :=
  ∀ i ∈ tidNuevo k e, i ∉ (lugares k).map Hilo.ident

instance (k : Globals μ) (e : Evento) : Decidable (TidLibre k e) :=
  inferInstanceAs (Decidable (∀ i ∈ tidNuevo k e, i ∉ (lugares k).map Hilo.ident))

/-- The live threads have different identifiers, so that a lookup finds the thread it
is for, and every wait is that of one blocked thread. -/
structure IdsUnicos (k : Globals μ) : Prop where
  hilos : ((lugares k).map Hilo.ident).Nodup
  busqueda : ∀ t ∈ k.listReadyTcb ++ k.listBlockedTcb, findTcbFromTid k t.tid t.parentPid = some t
  esperas : ∀ x ∈ motivos k, k.listBlockedTcb.countP (fun t => t.ident = x.1) = 1

section Steps

variable {cfg : Config μ} {k k' : Globals μ} {e : Evento}

/-- A permitted admission brings new identifiers. -/
theorem TidLibre.enter
    {a : Pool Hilo (Nat × Nat) Motivo} {t : Hilo}
    (hok : TidLibre k e)
    (h : Permite cfg k e a (.enter t))
    (hrun : ∀ path priority, e = .respuesta (.threadCreate path priority) →
      k.fase.ejecutando?.isSome) :
    t.ident ∉ a.threads.map Hilo.ident := by
  rcases h.2 with hfresh | ⟨⟨path, priority, pid, rfl, hpid, hident⟩, hthreads⟩
  · intro hmem
    obtain ⟨u, hu, heq⟩ := List.mem_map.mp hmem
    exact hfresh u hu (congrArg Prod.fst heq)
  · obtain ⟨p, hp⟩ := Option.isSome_iff_exists.mp (hrun path priority rfl)
    rw [hthreads]
    refine hok t.ident ?_
    rw [hident]
    simp [tidNuevo, hp, hpid]

/-- A message is attended in the name of the running thread. -/
theorem ejecutando_of_paso
    {m : Mensaje Nat}
    (h : paso cfg k (.respuesta m) = some k') :
    k.fase.ejecutando?.isSome := by
  obtain ⟨proximo, _, hfase, _⟩ := atenderMensaje_cases h
  rw [hfase]
  rfl

theorem TidLibre.paso
    (hc : Coherente k)
    (hd : Pool.Distinct Hilo.ident (vista k))
    (hok : TidLibre k e)
    (h : paso cfg k e = some k') :
    Pool.Distinct Hilo.ident (vista k') := by
  refine (paso_mueve hc h).1.invariant (I := Pool.Distinct Hilo.ident) hd ?_
  intro a b l ha hpermite hmove
  refine ha.move hmove ?_
  rintro t rfl
  refine hok.enter hpermite ?_
  rintro path priority rfl
  exact ejecutando_of_paso h

/-- The TCBs of the scheduler lists have unique identifiers too. -/
theorem nodup_ident_of_distinct
    (hd : Pool.Distinct Hilo.ident (vista k)) :
    ((k.listReadyTcb ++ k.listBlockedTcb).map Tcb.ident).Nodup := by
  have hsub : ((vista k).ready ++ (vista k).blocked).Sublist (vista k).threads :=
    List.sublist_append_right _ _
  have hnodup := List.Nodup.sublist (hsub.map Hilo.ident) hd
  have heq : ((vista k).ready ++ (vista k).blocked).map Hilo.ident =
      (k.listReadyTcb ++ k.listBlockedTcb).map Tcb.ident := by
    simp [vista, Function.comp_def]
  rwa [heq] at hnodup

/-- With unique identifiers `find_tcb_from_tid` finds the TCB it is asked for. -/
theorem findTcbFromTid_of_distinct
    {t : Tcb}
    (hd : Pool.Distinct Hilo.ident (vista k))
    (ht : t ∈ k.listReadyTcb ++ k.listBlockedTcb) :
    findTcbFromTid k t.tid t.parentPid = some t := by
  have hes : t.es t.parentPid t.tid = true := Tcb.es_iff.mpr ⟨rfl, rfl⟩
  have hsome : (findTcbFromTid k t.tid t.parentPid).isSome := by
    unfold findTcbFromTid
    split
    · rfl
    · rename_i hnone
      rcases List.mem_append.mp ht with ht | ht
      · exact List.find?_isSome.mpr ⟨t, ht, hes⟩
      · exact absurd hes (List.find?_eq_none.mp hnone t ht)
  obtain ⟨u, hu⟩ := Option.isSome_iff_exists.mp hsome
  obtain ⟨hpid, htid, hmem⟩ := findTcbFromTid_some hu
  have hmem : u ∈ k.listReadyTcb ++ k.listBlockedTcb := List.mem_append.mpr hmem.symm
  have heq : u = t := by
    refine List.inj_on_of_nodup_map (nodup_ident_of_distinct hd) hmem ht ?_
    simp [Tcb.ident, hpid, htid]
  rw [hu, heq]

/-- Unique identifiers make the lookups of a sound kernel exact. -/
theorem idsUnicos_of_distinct
    (hs : Pool.Sound Hilo.ident (vista k))
    (hd : Pool.Distinct Hilo.ident (vista k)) :
    IdsUnicos k := by
  refine ⟨hd, fun t ht => findTcbFromTid_of_distinct hd ht, ?_⟩
  rintro ⟨i, r⟩ hx
  have hle := hs.waits_le i
  have hwait : 1 ≤ (vista k).waitsOf i :=
    Multiset.one_le_count_iff_mem.mpr (Multiset.mem_map_of_mem Prod.fst hx)
  have hcount : (vista k).blocked.countP (fun h => h.ident = i) =
      k.listBlockedTcb.countP (fun t => t.ident = i) := by
    rw [vista, List.countP_map]
    rfl
  have hnodup := (List.sublist_append_right k.listReadyTcb k.listBlockedTcb).map Tcb.ident
  have hone := List.nodup_iff_count_le_one.mp
    (List.Nodup.sublist hnodup (nodup_ident_of_distinct hd)) i
  rw [List.count_eq_countP, List.countP_map] at hone
  have hone : k.listBlockedTcb.countP (fun t => t.ident = i) ≤ 1 := by
    refine le_trans (le_of_eq (List.countP_congr ?_)) hone
    simp
  rw [hcount] at hle
  exact Nat.le_antisymm hone (hwait.trans hle)

/-- The threads of the kernel when its first process has been created. -/
theorem distinct_arranque
    (memoria : μ) (path : List Char) (size : Nat) :
    Pool.Distinct Hilo.ident (vista (arranque cfg memoria path size)) := by
  refine (mueve_arranque cfg memoria path size).1.invariant
    (I := Pool.Distinct Hilo.ident) ?_ ?_
  · simp [Pool.Distinct, Pool.threads, vista, inicial, Fase.corriendo]
  · rintro a b l ha ⟨u, rfl | ⟨rfl, hfresh⟩⟩ hmove
    · exact ha.move hmove (fun t ht => by cases ht)
    · refine ha.move hmove ?_
      rintro t ht hmem
      cases ht
      obtain ⟨w, hw, heq⟩ := List.mem_map.mp hmem
      exact hfresh w hw (congrArg Prod.fst heq)

end Steps

end Kernel
end SinIdeas
