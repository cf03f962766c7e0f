import SinIdeas.Kernel.MutexOwnership

/-!
# Queues of mutexes

The names of the mutexes are different, and the queue of a mutex has threads of its
process only. For the mutexes of one process, `MutexesDe` says that nobody waits for
them and which TIDs may still own one; the loop of `release_all_mutexes` strikes the
TID of its TCB off that list.
-/

namespace SinIdeas
namespace Kernel

open Lib

variable {μ : Type}

/-- Mutexes have different names and queues of their own process. -/
structure ColasPropias (k : Globals μ) : Prop where
  nombres : (k.globalMutexes.map Mutex.name).Nodup
  propias : ∀ m ∈ k.globalMutexes, ∀ t ∈ m.blockedTcbs, t.parentPid = m.assignedPid

/-- Nobody waits for a mutex of the process, and those that are owned are owned under
one of the TIDs. -/
structure MutexesDe (k : Globals μ) (pid : Nat) (tids : List Nat) : Prop where
  sinCola : ∀ m ∈ k.globalMutexes, m.assignedPid = pid → m.blockedTcbs = []
  duenos : ∀ m ∈ k.globalMutexes, m.assignedPid = pid → m.assigned = true →
    m.assignedTid ∈ tids

section Changes

variable {k k' : Globals μ} {name : List Char} {f : Mutex → Mutex} {pid : Nat} {tids : List Nat}

theorem ColasPropias.of_mutexes
    (h : ColasPropias k)
    (hk' : k'.globalMutexes = k.globalMutexes) :
    ColasPropias k' := by
  constructor
  · rw [hk']
    exact h.nombres
  · rw [hk']
    exact h.propias

theorem MutexesDe.of_mutexes
    (h : MutexesDe k pid tids)
    (hk' : k'.globalMutexes = k.globalMutexes) :
    MutexesDe k' pid tids := by
  constructor
  · rw [hk']
    exact h.sinCola
  · rw [hk']
    exact h.duenos

theorem ColasPropias.modificar
    (h : ColasPropias k)
    (hname : ∀ m, (f m).name = m.name)
    (hf : ∀ m ∈ k.globalMutexes.find? (fun m => m.name == name),
      ∀ t ∈ (f m).blockedTcbs, t.parentPid = (f m).assignedPid)
    (hk' : k'.globalMutexes = modifyFirst (fun m => m.name == name) f k.globalMutexes) :
    ColasPropias k' := by
  constructor
  · rw [hk', map_modifyFirst (fun m _ => hname m)]
    exact h.nombres
  · rw [hk']
    intro m hm
    rcases mem_modifyFirst hm with hm | ⟨x, hx, rfl⟩
    · exact h.propias m hm
    · exact hf x hx

theorem MutexesDe.modificar
    (h : MutexesDe k pid tids)
    (hf : ∀ m ∈ k.globalMutexes.find? (fun m => m.name == name), (f m).assignedPid = pid →
      (f m).blockedTcbs = [] ∧ ((f m).assigned = true → (f m).assignedTid ∈ tids))
    (hk' : k'.globalMutexes = modifyFirst (fun m => m.name == name) f k.globalMutexes) :
    MutexesDe k' pid tids := by
  constructor
  · rw [hk']
    intro m hm hpid
    rcases mem_modifyFirst hm with hm | ⟨x, hx, rfl⟩
    · exact h.sinCola m hm hpid
    · exact (hf x hx hpid).1
  · rw [hk']
    intro m hm hpid
    rcases mem_modifyFirst hm with hm | ⟨x, hx, rfl⟩
    · exact h.duenos m hm hpid
    · exact (hf x hx hpid).2

/-- Mutexes with one name are one mutex. -/
theorem ColasPropias.eq_of_name
    {m m' : Mutex}
    (h : ColasPropias k)
    (hm : m ∈ k.globalMutexes)
    (hm' : m' ∈ k.globalMutexes)
    (hname : m.name = m'.name) :
    m = m' :=
  List.inj_on_of_nodup_map h.nombres hm hm' hname

theorem ColasPropias.mutexUnlock
    {tcb : Tcb}
    (h : ColasPropias k)
    (hunlock : mutexUnlock name tcb k = some k') :
    ColasPropias k' := by
  obtain ⟨m, hget, hcases⟩ := mutexUnlock_cases hunlock
  obtain ⟨hfind, _, _⟩ := getMutex_some hget
  have hqueue := h.propias m (List.mem_of_find?_eq_some hfind)
  rcases hcases with ⟨_, rfl⟩ | ⟨_, _, ⟨proximo, resto, hcola, rfl⟩ | ⟨_, rfl⟩⟩
  · exact h
  · refine h.modificar (f := Mutex.ceder proximo.tid) (fun _ => rfl) ?_ rfl
    intro x hx t ht
    have heq : x = m := Option.some.inj (hx.symm.trans hfind)
    subst heq
    exact hqueue t (List.mem_of_mem_tail ht)
  · refine h.modificar (f := Mutex.desasignar) (fun _ => rfl) ?_ rfl
    intro x hx t ht
    have heq : x = m := Option.some.inj (hx.symm.trans hfind)
    subst heq
    exact hqueue t ht

theorem MutexesDe.mutexUnlock
    {tcb : Tcb}
    (h : MutexesDe k pid tids)
    (hunlock : mutexUnlock name tcb k = some k') :
    MutexesDe k' pid tids := by
  obtain ⟨m, hget, hcases⟩ := mutexUnlock_cases hunlock
  obtain ⟨hfind, _, _⟩ := getMutex_some hget
  have hmem := List.mem_of_find?_eq_some hfind
  rcases hcases with ⟨_, rfl⟩ | ⟨_, _, ⟨proximo, resto, hcola, rfl⟩ | ⟨hcola, rfl⟩⟩
  · exact h
  · -- a mutex of the process has no queue, so this is another one
    refine h.modificar (f := Mutex.ceder proximo.tid) ?_ rfl
    intro x hx hpid
    have heq : x = m := Option.some.inj (hx.symm.trans hfind)
    subst heq
    have hnil := h.sinCola x hmem hpid
    rw [hcola] at hnil
    cases hnil
  · refine h.modificar (f := Mutex.desasignar) ?_ rfl
    intro x hx hpid
    have heq : x = m := Option.some.inj (hx.symm.trans hfind)
    subst heq
    refine ⟨hcola, fun hassigned => ?_⟩
    cases hassigned

theorem ColasPropias.releaseAllMutexes
    {tcb : Tcb}
    (h : ColasPropias k)
    (hrelease : releaseAllMutexes tcb k = some k') :
    ColasPropias k' := by
  refine releaseAllMutexes_invariant (I := ColasPropias) hrelease h ?_
  intro a b m ha _ _ _ _ hunlock
  exact ha.mutexUnlock hunlock

theorem mutexUnlock_names
    {tcb : Tcb}
    (hunlock : mutexUnlock name tcb k = some k') :
    k'.globalMutexes.map Mutex.name = k.globalMutexes.map Mutex.name := by
  obtain ⟨m, _, ⟨_, rfl⟩ | ⟨_, _, ⟨proximo, resto, _, rfl⟩ | ⟨_, rfl⟩⟩⟩ :=
    mutexUnlock_cases hunlock
  · rfl
  · exact map_modifyFirst (f := Mutex.ceder proximo.tid) (fun _ _ => rfl)
  · exact map_modifyFirst (f := Mutex.desasignar) (fun _ _ => rfl)

/-- The mutexes of the process whose names are in the list are not owned under the TID. -/
def SinDueno (k : Globals μ) (pid tid : Nat) (nombres : List (List Char)) : Prop :=
  ∀ m ∈ k.globalMutexes, m.name ∈ nombres → m.assignedPid = pid → m.assigned = true →
    m.assignedTid ≠ tid

/-- Unlocking a mutex under the TID strikes it off. -/
theorem SinDueno.mutexUnlock
    {tcb : Tcb} {nombres : List (List Char)} {m : Mutex}
    (h : SinDueno k pid tcb.tid nombres)
    (hcolas : ColasPropias k)
    (hde : MutexesDe k pid tids)
    (hm : m ∈ k.globalMutexes)
    (howned : m.assigned = true ∧ m.assignedTid = tcb.tid)
    (hunlock : Kernel.mutexUnlock m.name tcb k = some k') :
    SinDueno k' pid tcb.tid (nombres ++ [m.name]) := by
  obtain ⟨m', hget, hcases⟩ := mutexUnlock_cases hunlock
  obtain ⟨hfind, hname, _⟩ := getMutex_some hget
  have heq : m' = m := hcolas.eq_of_name (List.mem_of_find?_eq_some hfind) hm hname
  subst heq
  have hcolas' := hcolas.mutexUnlock hunlock
  -- the entry that is changed is not owned, or belongs to another process
  have hnew : ∃ f : Mutex → Mutex, (∀ x, (f x).name = x.name) ∧
      k'.globalMutexes = modifyFirst (fun x => x.name == m'.name) f k.globalMutexes ∧
      ((f m').assignedPid = pid → (f m').assigned = true → False) := by
    rcases hcases with ⟨hno, _⟩ | ⟨_, _, ⟨proximo, resto, hcola, rfl⟩ | ⟨_, rfl⟩⟩
    · exact absurd howned hno
    · refine ⟨Mutex.ceder proximo.tid, fun _ => rfl, rfl, ?_⟩
      intro hpid _
      have hnil := hde.sinCola m' hm hpid
      rw [hcola] at hnil
      cases hnil
    · refine ⟨Mutex.desasignar, fun _ => rfl, rfl, ?_⟩
      intro _ hassigned
      cases hassigned
  obtain ⟨f, hf, hk', hfree⟩ := hnew
  have hchanged : f m' ∈ k'.globalMutexes := by
    have hfound := find?_modifyFirst (p := fun x => x.name == m'.name) (f := f)
      (l := k.globalMutexes) (fun x => by rw [hf x])
    rw [hfind, ← hk'] at hfound
    exact List.mem_of_find?_eq_some hfound
  intro x hx hxname hpid hassigned
  by_cases hxm : x.name = m'.name
  · have hxf : x = f m' := hcolas'.eq_of_name hx hchanged (hxm.trans (hf m').symm)
    rw [hxf] at hpid hassigned
    exact absurd hassigned (fun ha => hfree hpid ha)
  · have hold : x ∈ k.globalMutexes := by
      rw [hk'] at hx
      rcases mem_modifyFirst hx with hx | ⟨y, hy, rfl⟩
      · exact hx
      · rw [hfind] at hy
        cases hy
        exact absurd (hf m') hxm
    rcases List.mem_append.mp hxname with hxname | hxname
    · exact h x hold hxname hpid hassigned
    · exact absurd (List.mem_singleton.mp hxname) hxm

/-- After `release_all_mutexes` no mutex of a process without waiters is owned under the
TID. -/
theorem MutexesDe.releaseAllMutexes
    {tcb : Tcb}
    (h : MutexesDe k pid (tcb.tid :: tids))
    (hcolas : ColasPropias k)
    (hrelease : releaseAllMutexes tcb k = some k') :
    MutexesDe k' pid tids := by
  set nombres := k.globalMutexes.map Mutex.name with hnombres
  have hloop : ∀ n i a, a.globalMutexes.map Mutex.name = nombres → i + n = nombres.length →
      ColasPropias a → MutexesDe a pid (tcb.tid :: tids) →
      SinDueno a pid tcb.tid (nombres.take i) → releaseMutexesFrom tcb n i a = some k' →
      MutexesDe k' pid (tcb.tid :: tids) ∧ SinDueno k' pid tcb.tid nombres ∧
        k'.globalMutexes.map Mutex.name = nombres := by
    intro n
    induction n with
    | zero =>
        intro i a hnames hi _ hde hdone hend
        cases hend
        rw [List.take_of_length_le (by omega)] at hdone
        exact ⟨hde, hdone, hnames⟩
    | succ n ih =>
        intro i a hnames hi hca hde hdone hround
        unfold releaseMutexesFrom at hround
        cases hm : a.globalMutexes[i]? with
        | none =>
            simp [hm] at hround
        | some m =>
            simp only [hm, Option.bind_eq_bind, Option.bind_some] at hround
            have hmem := List.mem_of_getElem? hm
            have hname : nombres[i]? = some m.name := by
              rw [← hnames, List.getElem?_map, hm]
              rfl
            have htake : nombres.take (i + 1) = nombres.take i ++ [m.name] := by
              rw [List.take_add_one, hname]
              rfl
            split_ifs at hround with hfreed howned
            · cases hunlock : Kernel.mutexUnlock m.name tcb a with
              | none =>
                  simp [hunlock] at hround
              | some b =>
                  simp only [hunlock, Option.bind_some] at hround
                  refine ih (i + 1) b ((mutexUnlock_names hunlock).trans hnames) (by omega)
                    (hca.mutexUnlock hunlock) (hde.mutexUnlock hunlock) ?_ hround
                  rw [htake]
                  exact hdone.mutexUnlock hca hde hmem howned hunlock
            · refine ih (i + 1) a hnames (by omega) hca hde ?_ hround
              rw [htake]
              intro x hx hxname hpid hassigned
              rcases List.mem_append.mp hxname with hxname | hxname
              · exact hdone x hx hxname hpid hassigned
              · have heq : x = m := hca.eq_of_name hx hmem (List.mem_singleton.mp hxname)
                subst heq
                exact fun htid => howned ⟨hassigned, htid⟩
  have hlen : 0 + k.globalMutexes.length = nombres.length := by
    rw [hnombres, List.length_map, Nat.zero_add]
  obtain ⟨hde, hdone, hnames⟩ := hloop _ 0 k rfl hlen hcolas h (by simp [SinDueno]) hrelease
  refine ⟨hde.sinCola, fun m hm hpid hassigned => ?_⟩
  have hname : m.name ∈ nombres := by
    rw [← hnames]
    exact List.mem_map_of_mem hm
  rcases List.mem_cons.mp (hde.duenos m hm hpid hassigned) with htid | htid
  · exact absurd htid (hdone m hm hname hpid hassigned)
  · exact htid

end Changes

section Steps

variable {cfg : Config μ} {k k' : Globals μ} {e : Evento} {pid : Nat} {tids : List Nat}

theorem ColasPropias.mutexLock
    {name : List Char} {tcb : Tcb} {reservado : Bool}
    (h : ColasPropias k)
    (hlock : mutexLock cfg name tcb k = some (k', reservado)) :
    ColasPropias k' := by
  rcases mutexLock_cases hlock with ⟨_, _, salida, rfl⟩ | ⟨m, hget, hcases⟩
  · exact h.of_mutexes rfl
  obtain ⟨hfind, _, _⟩ := getMutex_some hget
  have hqueue := h.propias m (List.mem_of_find?_eq_some hfind)
  rcases hcases with ⟨_, _, rfl⟩ | ⟨_, _, _, rfl⟩ | ⟨hpid, _, _, _, rfl⟩
  · refine h.modificar (f := fun m => { m with liberado := true }) (fun _ => rfl) ?_ rfl
    intro x hx t ht
    have heq : x = m := Option.some.inj (hx.symm.trans hfind)
    subst heq
    exact hqueue t ht
  · refine h.modificar (f := Mutex.asignar tcb.tid) (fun _ => rfl) ?_ rfl
    intro x hx t ht
    have heq : x = m := Option.some.inj (hx.symm.trans hfind)
    subst heq
    exact hqueue t ht
  · refine h.modificar (f := Mutex.encolar { tcb with state := .blocked }) (fun _ => rfl) ?_ rfl
    intro x hx t ht
    have heq : x = m := Option.some.inj (hx.symm.trans hfind)
    subst heq
    rcases List.mem_append.mp ht with ht | ht
    · exact hqueue t ht
    · rw [List.mem_singleton.mp ht]
      exact hpid.symm

theorem ColasPropias.paso
    (h : ColasPropias k)
    (hviejos : k.listaTcbsBlockeados = [])
    (hstep : paso cfg k e = some k') :
    ColasPropias k' := by
  cases efectoMutexes_paso hviejos hstep with
  | igual hsame =>
      exact h.of_mutexes hsame
  | create p name pid' _ _ hnew hk' =>
      constructor
      · rw [hk', List.map_append]
        refine List.nodup_append.mpr ⟨h.nombres, by simp, ?_⟩
        intro x hx y hy
        obtain ⟨m, hm, rfl⟩ := List.mem_map.mp hx
        rw [List.map_singleton, List.mem_singleton] at hy
        rw [hy]
        exact hnew m hm
      · rw [hk']
        intro m hm t ht
        rcases List.mem_append.mp hm with hm | hm
        · exact h.propias m hm t ht
        · rw [List.mem_singleton.mp hm] at ht
          cases ht
  | lock p name x k₁ reservado _ _ hlock hk' =>
      have h' : ColasPropias (interruptQuantum k) := h.of_mutexes rfl
      have hlocked := h'.mutexLock hlock
      refine hlocked.of_mutexes ?_
      rw [hk']
      split_ifs <;> rfl
  | unlock p name x k₁ _ _ hunlock hk' =>
      have h' : ColasPropias (interruptQuantum k) := h.of_mutexes rfl
      have hunlocked := h'.mutexUnlock hunlock
      exact hunlocked.of_mutexes (by rw [hk']; rfl)
  | release pid' tcb k₁ k₂ _ hk₁ hrelease hk' =>
      exact ((h.of_mutexes hk₁).releaseAllMutexes hrelease).of_mutexes hk'

/-- A step of threads of other processes keeps the mutexes of the process. -/
theorem MutexesDe.paso
    (h : MutexesDe k pid tids)
    (hviejos : k.listaTcbsBlockeados = [])
    (hother : ∀ p, k.fase = .ejecutando p → p.parentPid ≠ pid)
    (hcurrent : ∀ p q, k.fase = .ejecutando p → k.currentPcbExecuting = some q →
      q = p.parentPid)
    (hstep : Kernel.paso cfg k e = some k') :
    MutexesDe k' pid tids := by
  cases efectoMutexes_paso hviejos hstep with
  | igual hsame =>
      exact h.of_mutexes hsame
  | create p name q hfase hq _ hk' =>
      have hne : q ≠ pid := hcurrent p q hfase hq ▸ hother p hfase
      constructor
      · rw [hk']
        intro m hm hpid
        rcases List.mem_append.mp hm with hm | hm
        · exact h.sinCola m hm hpid
        · rw [List.mem_singleton.mp hm]
          rfl
      · rw [hk']
        intro m hm hpid hassigned
        rcases List.mem_append.mp hm with hm | hm
        · exact h.duenos m hm hpid hassigned
        · rw [List.mem_singleton.mp hm] at hassigned
          cases hassigned
  | lock p name x k₁ reservado _ hfase hlock hk' =>
      have hlocked : MutexesDe k₁ pid tids := by
        have h' : MutexesDe (interruptQuantum k) pid tids := h.of_mutexes rfl
        rcases mutexLock_cases hlock with ⟨_, _, salida, rfl⟩ | ⟨m, hget, hcases⟩
        · exact h'.of_mutexes rfl
        obtain ⟨hfind, _, _⟩ := getMutex_some hget
        have hmem := List.mem_of_find?_eq_some hfind
        rcases hcases with ⟨_, _, rfl⟩ | ⟨hpid, _, _, rfl⟩ | ⟨hpid, _, _, _, rfl⟩
        · refine h'.modificar (f := fun m => { m with liberado := true }) ?_ rfl
          intro y hy hypid
          have heq : y = m := Option.some.inj (hy.symm.trans hfind)
          subst heq
          exact ⟨h'.sinCola y hmem hypid, h'.duenos y hmem hypid⟩
        · refine h'.modificar (f := Mutex.asignar p.tid) ?_ rfl
          intro y hy hypid
          have heq : y = m := Option.some.inj (hy.symm.trans hfind)
          subst heq
          exact absurd (hpid.symm.trans hypid) (hother p hfase)
        · refine h'.modificar (f := Mutex.encolar { p with state := .blocked }) ?_ rfl
          intro y hy hypid
          have heq : y = m := Option.some.inj (hy.symm.trans hfind)
          subst heq
          exact absurd (hpid.symm.trans hypid) (hother p hfase)
      refine hlocked.of_mutexes ?_
      rw [hk']
      split_ifs <;> rfl
  | unlock p name x k₁ _ _ hunlock hk' =>
      have h' : MutexesDe (interruptQuantum k) pid tids := h.of_mutexes rfl
      have hunlocked := h'.mutexUnlock hunlock
      exact hunlocked.of_mutexes (by rw [hk']; rfl)
  | release pid' tcb k₁ k₂ _ hk₁ hrelease hk' =>
      have hreleased : MutexesDe k₂ pid tids := by
        refine releaseAllMutexes_invariant (I := fun a => MutexesDe a pid tids) hrelease
          (h.of_mutexes hk₁) ?_
        intro a b m ha _ _ _ _ hunlock
        exact ha.mutexUnlock hunlock
      exact hreleased.of_mutexes hk'

end Steps

end Kernel
end SinIdeas
