import SinIdeas.Kernel.ThreadIds

/-!
# Owners of mutexes

A mutex keeps the PID of its process and the TID of its owner. MUTEX_UNLOCK and
`release_all_mutexes` compare the TID only, so a thread of another process with the
same TID gives the mutex away, and a MUTEX_LOCK from another process frees it.
Without these steps the owner of a mutex keeps it, and as long as no TID is handed out
twice the owner is one thread.
-/

namespace SinIdeas
namespace Kernel

open Lib

variable {μ : Type}

/-- The mutex belongs to the process `pid` and is owned by its thread `tid`. -/
def Posee (k : Globals μ) (name : List Char) (pid tid : Nat) : Prop :=
  ∃ m ∈ k.globalMutexes.find? (fun m => m.name == name),
    m.liberado = false ∧ m.assigned = true ∧ m.assignedPid = pid ∧ m.assignedTid = tid

instance (k : Globals μ) (name : List Char) (pid tid : Nat) : Decidable (Posee k name pid tid) :=
  inferInstanceAs (Decidable (∃ m ∈ k.globalMutexes.find? (fun m => m.name == name),
    m.liberado = false ∧ m.assigned = true ∧ m.assignedPid = pid ∧ m.assignedTid = tid))

/-- A round of the loop that ends the process `pid` which releases mutexes: in whose
name, and for which TCB. -/
def rondaSuelta (k : Globals μ) (pid i : Nat) : Option (Nat × Tcb) :=
  if i < (k.pcbs pid).tidCount ∧ (k.pcbs pid).tidCount ≤ 1 then
    (k.pcbs pid).tcbs[i]?.map (Prod.mk pid)
  else
    none

/-- The process and the TCB for which the event calls `release_all_mutexes`. -/
def libera (k : Globals μ) : Evento → Option (Nat × Tcb)
  | .respuesta (.threadExit _) => k.fase.ejecutando?.map (fun p => (p.parentPid, p))
  | .seguirFin =>
      match k.fase, k.currentPcbExecuting with
      | .finalizando _ _ i, some pid => rondaSuelta k pid i
      | .esperando _ _ i, some pid => (k.pcbs pid).tcbs[i]?.map (Prod.mk pid)
      | _, _ => none
  | .dumpSeguir j =>
      match (k.dumps[j]?).map Dump.fase with
      | some (.finalizando pid i) => rondaSuelta k pid i
      | some (.esperando pid i) => (k.pcbs pid).tcbs[i]?.map (Prod.mk pid)
      | _ => none
  | _ => none

/-- The mutex that the event locks or unlocks, and the thread that does. -/
def mutexPedido (k : Globals μ) : Evento → Option (Tcb × Mutex)
  | .respuesta (.mutexLock name _) => do
      let p ← k.fase.ejecutando?
      let m ← (← getMutex k name)
      some (p, m)
  | .respuesta (.mutexUnlock name _) => do
      let p ← k.fase.ejecutando?
      let m ← (← getMutex k name)
      if m.assignedTid = p.tid then some (p, m) else none
  | _ => none

/-- The event takes no owned mutex of another process: it is not locked from there, and
not given away under the TID of its owner. -/
def DuenosRespetados (k : Globals μ) (e : Evento) : Prop :=
  (∀ x ∈ mutexPedido k e, x.2.assigned = true → x.2.assignedPid = x.1.parentPid) ∧
  ∀ q ∈ libera k e, ∀ m ∈ k.globalMutexes, m.assigned = true → m.assignedTid = q.2.tid →
    m.assignedPid = q.1

instance (k : Globals μ) (e : Evento) : Decidable (DuenosRespetados k e) :=
  inferInstanceAs (Decidable (
    (∀ x ∈ mutexPedido k e, x.2.assigned = true → x.2.assignedPid = x.1.parentPid) ∧
    ∀ q ∈ libera k e, ∀ m ∈ k.globalMutexes, m.assigned = true → m.assignedTid = q.2.tid →
      m.assignedPid = q.1))

/-- The event is a MUTEX_UNLOCK of the mutex by the thread `(pid, tid)`, the end of
that thread, or that of its process. -/
def Suelta (k : Globals μ) (name : List Char) (pid tid : Nat) : Evento → Prop
  | .respuesta (.mutexUnlock name' _) =>
      name' = name ∧ ∃ p ∈ k.fase.ejecutando?, p.ident = (pid, tid)
  | .respuesta (.threadExit _) => ∃ p ∈ k.fase.ejecutando?, p.ident = (pid, tid)
  | .seguirFin => ∃ q ∈ libera k .seguirFin, q.1 = pid
  | .dumpSeguir j => ∃ q ∈ libera k (.dumpSeguir j), q.1 = pid
  | _ => False

section Instances

instance (k : Globals μ) (name : List Char) (pid tid : Nat) :
    ∀ m, Decidable (Suelta k name pid tid (.respuesta m))
  | .mutexUnlock name' _ =>
      inferInstanceAs (Decidable (name' = name ∧ ∃ p ∈ k.fase.ejecutando?, p.ident = (pid, tid)))
  | .threadExit _ => inferInstanceAs (Decidable (∃ p ∈ k.fase.ejecutando?, p.ident = (pid, tid)))
  | .threadCancel _ => inferInstanceAs (Decidable False)
  | .mutexLock _ _ => inferInstanceAs (Decidable False)
  | .processExit _ => inferInstanceAs (Decidable False)
  | .segmentationFault _ _ => inferInstanceAs (Decidable False)
  | .dumpMemory _ _ => inferInstanceAs (Decidable False)
  | .io _ => inferInstanceAs (Decidable False)
  | .processCreate _ _ _ => inferInstanceAs (Decidable False)
  | .threadCreate _ _ => inferInstanceAs (Decidable False)
  | .threadJoin _ => inferInstanceAs (Decidable False)
  | .mutexCreate _ _ => inferInstanceAs (Decidable False)
  | .kernelInterruption _ _ => inferInstanceAs (Decidable False)

instance (k : Globals μ) (name : List Char) (pid tid : Nat) :
    ∀ e, Decidable (Suelta k name pid tid e)
  | .respuesta m => inferInstanceAs (Decidable (Suelta k name pid tid (.respuesta m)))
  | .seguirFin => inferInstanceAs (Decidable (∃ q ∈ libera k .seguirFin, q.1 = pid))
  | .dumpSeguir j => inferInstanceAs (Decidable (∃ q ∈ libera k (.dumpSeguir j), q.1 = pid))
  | .despachar => inferInstanceAs (Decidable False)
  | .ioFin => inferInstanceAs (Decidable False)
  | .dumpRespuesta _ _ => inferInstanceAs (Decidable False)

end Instances

/-- What an event does to the mutexes. -/
inductive EfectoMutexes (cfg : Config μ) (k : Globals μ) (e : Evento) (k' : Globals μ) : Prop
  | igual :
      k'.globalMutexes = k.globalMutexes →
      EfectoMutexes cfg k e k'
  | create (p : Tcb) (name : List Char) (pid : Nat) :
      k.fase = .ejecutando p →
      k.currentPcbExecuting = some pid →
      (∀ m ∈ k.globalMutexes, m.name ≠ name) →
      k'.globalMutexes = k.globalMutexes ++ [nuevoMutex name pid] →
      EfectoMutexes cfg k e k'
  | lock (p : Tcb) (name : List Char) (x : Nat) (k₁ : Globals μ) (reservado : Bool) :
      e = .respuesta (.mutexLock name x) →
      k.fase = .ejecutando p →
      mutexLock cfg name p (interruptQuantum k) = some (k₁, reservado) →
      k' = (if reservado then seguirCon p k₁ else soltar p k₁) →
      EfectoMutexes cfg k e k'
  | unlock (p : Tcb) (name : List Char) (x : Nat) (k₁ : Globals μ) :
      e = .respuesta (.mutexUnlock name x) →
      k.fase = .ejecutando p →
      mutexUnlock name p (interruptQuantum k) = some k₁ →
      k' = seguirCon p k₁ →
      EfectoMutexes cfg k e k'
  | release (pid : Nat) (tcb : Tcb) (k₁ k₂ : Globals μ) :
      libera k e = some (pid, tcb) →
      k₁.globalMutexes = k.globalMutexes →
      releaseAllMutexes tcb k₁ = some k₂ →
      k'.globalMutexes = k₂.globalMutexes →
      EfectoMutexes cfg k e k'

section Effects

variable {cfg : Config μ} {k k' : Globals μ} {e : Evento}

theorem terminarProceso_mutexes
    {causa : Causa} {pid : Nat} :
    (terminarProceso cfg causa pid k).globalMutexes = k.globalMutexes := by
  obtain ⟨pcbs, salida, k₁, hk₁, _, heq⟩ := terminarProceso_cases cfg causa pid k
  rw [heq]
  cases causa with
  | processExit =>
      simp only [tryCreateNewProcessLoop]
      rw [tryCreateRounds_admite, hk₁]
  | segmentationFault =>
      rw [hk₁]

theorem efectoMutexes_atenderSyscall
    {p : Tcb} {pid : Nat} {m : Mensaje Nat}
    (hrun : k.fase = .ejecutando p)
    (hpid : k.currentPcbExecuting = some pid ∨ ∃ tid ppid, m = .kernelInterruption tid ppid)
    (h : atenderSyscall cfg p pid m (interruptQuantum k) = some k') :
    EfectoMutexes cfg k (.respuesta m) k' := by
  cases m with
  | processCreate path size priority =>
      cases h
      refine .igual ?_
      simp only [seguirCon]
      rw [processCreate_admite]
      rfl
  | processExit x =>
      cases h
      exact .igual rfl
  | segmentationFault x y =>
      cases h
      exact .igual rfl
  | threadCreate path priority =>
      cases h
      refine .igual ?_
      simp only [seguirCon]
      rw [createThread_admite]
      rfl
  | threadJoin tid =>
      cases h
      refine .igual ?_
      rcases threadJoin_cases tid p (interruptQuantum k) with ⟨_, heq⟩ | ⟨_, _, heq⟩
      · rw [heq]
        rfl
      · rw [heq]
        rfl
  | threadCancel tid =>
      obtain ⟨k₁, hcancel, hk'⟩ := Option.bind_eq_some_iff.mp h
      cases hk'
      refine .igual ?_
      rcases threadCancel_cases hcancel with ⟨tcb, _, rfl⟩ | ⟨_, _, rfl⟩
      · exact unlockTcbJoinsFrom_mutexes
      · rfl
  | threadExit x =>
      obtain ⟨k₁, hexit, hk'⟩ := Option.bind_eq_some_iff.mp h
      cases hk'
      obtain ⟨pcbs, k₂, hk₂, _, _, hrelease⟩ := threadExit_cases hexit
      refine .release p.parentPid p _ _ ?_ ?_ hrelease rfl
      · simp [libera, hrun, Fase.ejecutando?]
      · rw [unlockTcbJoins, unlockTcbJoinsFrom_mutexes, hk₂]
        rfl
  | mutexCreate name x =>
      obtain ⟨k₁, hcreate, hk'⟩ := Option.bind_eq_some_iff.mp h
      cases hk'
      rcases mutexCreate_cases hcreate with rfl | ⟨hnew, rfl⟩
      · exact .igual rfl
      · refine .create p name pid hrun ?_ hnew rfl
        rcases hpid with hpid | ⟨_, _, hno⟩
        · exact hpid
        · cases hno
  | mutexLock name x =>
      obtain ⟨⟨k₁, reservado⟩, hlock, hk'⟩ := Option.bind_eq_some_iff.mp h
      exact .lock p name x k₁ reservado rfl hrun hlock (Option.some.inj hk').symm
  | mutexUnlock name x =>
      obtain ⟨k₁, hunlock, hk'⟩ := Option.bind_eq_some_iff.mp h
      exact .unlock p name x k₁ rfl hrun hunlock (Option.some.inj hk').symm
  | dumpMemory x y =>
      cases h
      exact .igual rfl
  | io milisegundos =>
      obtain ⟨tcb, _, hk'⟩ := Option.bind_eq_some_iff.mp h
      cases hk'
      exact .igual rfl
  | kernelInterruption x y =>
      cases h
      exact .igual rfl

/-- A round of the loop that ends a process releases the mutexes of its TCB or leaves
the mutexes alone. -/
theorem finalizarHilo_mutexes
    {pid i : Nat} {avance : Avance}
    (hviejos : k.listaTcbsBlockeados = [])
    (h : finalizarHilo cfg pid i k = some (k', avance)) :
    k'.globalMutexes = k.globalMutexes ∨
    ∃ tcb k₁, rondaSuelta k pid i = some (pid, tcb) ∧ k₁.globalMutexes = k.globalMutexes ∧
      releaseAllMutexes tcb k₁ = some k' := by
  rcases finalizarHilo_cases hviejos h with ⟨_, _, rfl⟩ | ⟨tcb, hi, htcb, ⟨_, _, rfl⟩ |
    ⟨_, hcount, hrelease⟩⟩
  · exact Or.inl rfl
  · exact Or.inl rfl
  · refine Or.inr ⟨tcb, _, ?_, ?_, hrelease⟩
    · rw [rondaSuelta, if_pos ⟨hi, hcount⟩, htcb]
      rfl
    · rfl

theorem reanudarHilo_mutexes
    {pid i : Nat}
    (hviejos : k.listaTcbsBlockeados = [])
    (h : reanudarHilo pid i k = some k') :
    ∃ tcb k₁, (k.pcbs pid).tcbs[i]? = some tcb ∧ k₁.globalMutexes = k.globalMutexes ∧
      releaseAllMutexes tcb k₁ = some k' := by
  obtain ⟨n, tcb, _, htcb, hrelease⟩ := reanudarHilo_cases hviejos h
  refine ⟨tcb, _, htcb, ?_, hrelease⟩
  rfl

/-- Every event does one of these to the mutexes. -/
theorem efectoMutexes_paso
    (hviejos : k.listaTcbsBlockeados = [])
    (h : paso cfg k e = some k') :
    EfectoMutexes cfg k e k' := by
  cases e with
  | despachar =>
      obtain ⟨seguir, previo, proximo, k₁, _, _, rfl, hcases⟩ := despachar_cases h
      refine .igual ?_
      rcases hcases with ⟨rfl, rfl, rfl⟩ | ⟨rfl, l, m, n, q, _, _, rfl⟩ <;> rfl
  | respuesta m =>
      obtain ⟨proximo, pid, hfase, hpid, hsyscall⟩ := atenderMensaje_cases h
      exact efectoMutexes_atenderSyscall hfase hpid hsyscall
  | seguirFin =>
      rcases seguirFin_cases h with
        ⟨causa, proximo, i, pid, k₁, avance, hfase, hpid, hround, hcases⟩ |
        ⟨causa, proximo, i, pid, k₁, hfase, hpid, hround, rfl⟩
      · have hmutexes : k'.globalMutexes = k₁.globalMutexes := by
          rcases hcases with ⟨_, rfl⟩ | ⟨_, rfl⟩ | ⟨_, rfl⟩
          · rfl
          · rfl
          · exact terminarProceso_mutexes
        rcases finalizarHilo_mutexes hviejos hround with hsame | ⟨tcb, k₂, hsuelta, hk₂, hrelease⟩
        · exact .igual (hmutexes.trans hsame)
        · refine .release pid tcb k₂ k₁ ?_ hk₂ hrelease hmutexes
          simp [libera, hfase, hpid, hsuelta]
      · obtain ⟨tcb, k₂, htcb, hk₂, hrelease⟩ := reanudarHilo_mutexes hviejos hround
        refine .release pid tcb k₂ k₁ ?_ hk₂ hrelease rfl
        simp [libera, hfase, hpid, htcb]
  | ioFin =>
      refine .igual ?_
      obtain ⟨request, resto, _, ⟨l, t, m, _, _, _, rfl⟩ | ⟨_, rfl⟩⟩ := ioFin_cases h <;> rfl
  | dumpRespuesta j r =>
      refine .igual ?_
      obtain ⟨d, _, _, ⟨_, rfl⟩ | ⟨_, _, rfl⟩ | ⟨_, rfl⟩⟩ := dumpRespuesta_cases h <;> rfl
  | dumpSeguir j =>
      obtain ⟨d, hd, ⟨pid, i, k₁, avance, hfase, hround, hcases⟩ |
        ⟨pid, i, k₁, hfase, hround, rfl⟩⟩ := dumpSeguir_cases h
      · have hmutexes : k'.globalMutexes = k₁.globalMutexes := by
          rcases hcases with ⟨_, rfl⟩ | ⟨_, rfl⟩ | ⟨_, rfl⟩ <;> rfl
        rcases finalizarHilo_mutexes hviejos hround with hsame | ⟨tcb, k₂, hsuelta, hk₂, hrelease⟩
        · exact .igual (hmutexes.trans hsame)
        · refine .release pid tcb k₂ k₁ ?_ hk₂ hrelease hmutexes
          simp [libera, hd, hfase, hsuelta]
      · obtain ⟨tcb, k₂, htcb, hk₂, hrelease⟩ := reanudarHilo_mutexes hviejos hround
        refine .release pid tcb k₂ k₁ ?_ hk₂ hrelease rfl
        simp [libera, hd, hfase, htcb]

end Effects

section Ownership

variable {cfg : Config μ} {k k' : Globals μ} {e : Evento} {name : List Char} {pid tid : Nat}

/-- A mutex that is changed without touching its owner stays owned. -/
theorem Posee.modificar
    {name' : List Char} {f : Mutex → Mutex}
    (h : Posee k name pid tid)
    (hname : ∀ m, (f m).name = m.name)
    (hf : ∀ m, name' = name → m.assigned = true → m.assignedPid = pid → m.assignedTid = tid →
      (f m).liberado = m.liberado ∧ (f m).assigned = true ∧ (f m).assignedPid = pid ∧
        (f m).assignedTid = tid)
    (hk' : k'.globalMutexes = modifyFirst (fun m => m.name == name') f k.globalMutexes) :
    Posee k' name pid tid := by
  obtain ⟨m, hfind, hfreed, hassigned, hpid, htid⟩ := h
  unfold Posee
  rw [hk']
  by_cases hsame : name' = name
  · subst hsame
    obtain ⟨hfreed', hassigned', hpid', htid'⟩ := hf m rfl hassigned hpid htid
    refine ⟨f m, ?_, hfreed'.trans hfreed, hassigned', hpid', htid'⟩
    rw [find?_modifyFirst (fun x => by rw [hname x]), hfind]
    rfl
  · refine ⟨m, ?_, hfreed, hassigned, hpid, htid⟩
    rw [find?_modifyFirst_of_disjoint ?_, hfind]
    · rfl
    · intro x hx
      have hx' : x.name = name' := by simpa using hx
      have hno : (x.name == name) = false := by
        rw [hx']
        simpa using hsame
      exact ⟨hno, by rw [hname x]; exact hno⟩

theorem Posee.of_mutexes
    (h : Posee k name pid tid)
    (hk' : k'.globalMutexes = k.globalMutexes) :
    Posee k' name pid tid := by
  unfold Posee
  rw [hk']
  exact h

/-- A `mutex_unlock` of another mutex or under another TID leaves the owner. -/
theorem Posee.mutexUnlock
    {name' : List Char} {tcb : Tcb}
    (h : Posee k name pid tid)
    (hunlock : mutexUnlock name' tcb k = some k')
    (hother : name' = name → tcb.tid ≠ tid) :
    Posee k' name pid tid := by
  obtain ⟨m, hget, hcases⟩ := mutexUnlock_cases hunlock
  rcases hcases with ⟨_, rfl⟩ | ⟨_, htid, hcases⟩
  · exact h
  · have hname : name' ≠ name := by
      rintro rfl
      obtain ⟨m', hfind, _, _, _, htid'⟩ := h
      rw [(getMutex_some hget).1] at hfind
      cases hfind
      exact hother rfl (htid.symm.trans htid')
    rcases hcases with ⟨proximo, resto, _, rfl⟩ | ⟨_, rfl⟩
    · exact h.modificar (f := Mutex.ceder proximo.tid) (fun _ => rfl)
        (fun _ hsame => absurd hsame hname) rfl
    · exact h.modificar (f := Mutex.desasignar) (fun _ => rfl)
        (fun _ hsame => absurd hsame hname) rfl

/-- `release_all_mutexes` for another TID leaves the owner. -/
theorem Posee.releaseAllMutexes
    {tcb : Tcb}
    (h : Posee k name pid tid)
    (hrelease : releaseAllMutexes tcb k = some k')
    (hother : tcb.tid ≠ tid) :
    Posee k' name pid tid := by
  refine releaseAllMutexes_invariant (I := fun a => Posee a name pid tid) hrelease h ?_
  intro a b m ha _ _ _ _ hunlock
  exact ha.mutexUnlock hunlock (fun _ => hother)

/-- A `mutex_lock` leaves the owner, unless it frees the mutex. -/
theorem Posee.mutexLock
    {name' : List Char} {tcb : Tcb} {reservado : Bool}
    (h : Posee k name pid tid)
    (hlock : mutexLock cfg name' tcb k = some (k', reservado))
    (hown : name' = name → pid = tcb.parentPid) :
    Posee k' name pid tid := by
  rcases mutexLock_cases hlock with ⟨_, _, salida, rfl⟩ | ⟨m, hget, hcases⟩
  · exact h
  have hfound : name' = name →
      m.assigned = true ∧ m.assignedPid = pid ∧ m.assignedTid = tid := by
    rintro rfl
    obtain ⟨m', hfind, _, hassigned, hpid, htid⟩ := h
    rw [(getMutex_some hget).1] at hfind
    cases hfind
    exact ⟨hassigned, hpid, htid⟩
  rcases hcases with ⟨hpid, _, rfl⟩ | ⟨_, hfree, _, rfl⟩ | ⟨_, _, _, _, rfl⟩
  · refine h.modificar (f := fun m => { m with liberado := true }) (fun _ => rfl) ?_ rfl
    intro _ hsame
    exact absurd ((hfound hsame).2.1.trans (hown hsame)) hpid
  · refine h.modificar (f := Mutex.asignar tcb.tid) (fun _ => rfl) ?_ rfl
    intro x hsame _ hpid' htid'
    obtain ⟨hassigned, _, htid⟩ := hfound hsame
    have hre : m.assignedTid = tcb.tid := by
      rcases hfree with hfree | hfree
      · rw [hassigned] at hfree
        cases hfree
      · exact hfree
    exact ⟨rfl, rfl, hpid', hre.symm.trans htid⟩
  · exact h.modificar (f := Mutex.encolar { tcb with state := .blocked }) (fun _ => rfl)
      (fun _ _ hassigned hpid htid => ⟨rfl, hassigned, hpid, htid⟩) rfl

/-- Releasing the mutexes under a TID is the end of that thread or of its process. -/
theorem suelta_of_libera
    {tcb : Tcb}
    (h : libera k e = some (pid, tcb))
    (htid : tcb.tid = tid) :
    Suelta k name pid tid e := by
  cases e with
  | respuesta m =>
      cases m with
      | threadExit x =>
          obtain ⟨p, hp, heq⟩ := Option.map_eq_some_iff.mp h
          cases heq
          exact ⟨tcb, hp, Tcb.ident_eq.mpr ⟨rfl, htid⟩⟩
      | _ => cases h
  | seguirFin =>
      exact ⟨_, h, rfl⟩
  | dumpSeguir j =>
      exact ⟨_, h, rfl⟩
  | _ => cases h

/-- A guarded step that is not one of those that may take the mutex leaves its owner. -/
theorem Posee.paso
    (h : Posee k name pid tid)
    (hviejos : k.listaTcbsBlockeados = [])
    (hok : DuenosRespetados k e)
    (hkeeps : ¬ Suelta k name pid tid e)
    (hstep : paso cfg k e = some k') :
    Posee k' name pid tid := by
  obtain ⟨m, hfind, hfreed, hassigned, hpid, htid⟩ := id h
  cases efectoMutexes_paso hviejos hstep with
  | igual hsame =>
      exact h.of_mutexes hsame
  | create p name' pid' _ _ _ hk' =>
      refine ⟨m, ?_, hfreed, hassigned, hpid, htid⟩
      rw [hk', List.find?_append, hfind]
      rfl
  | lock p name' x k₁ reservado he hfase hlock hk' =>
      have hown : name' = name → pid = p.parentPid := by
        rintro rfl
        rcases mutexLock_cases hlock with ⟨hnone, _⟩ | ⟨m', hget, _⟩
        · exact absurd (by simpa using (List.find?_eq_some_iff_append.mp hfind).1)
            (getMutex_none hnone m (List.mem_of_find?_eq_some hfind))
        · have hget' : getMutex k name' = some (some m') := hget
          have heq : m' = m := Option.some.inj ((getMutex_some hget).1.symm.trans hfind)
          subst heq
          refine hpid.symm.trans (hok.1 (p, m') ?_ hassigned)
          simp [mutexPedido, he, hfase, Fase.ejecutando?, hget']
      have hlocked := Posee.mutexLock (k := interruptQuantum k) h hlock hown
      refine hlocked.of_mutexes ?_
      rw [hk']
      split_ifs <;> rfl
  | unlock p name' x k₁ he hfase hunlock hk' =>
      have hother : name' = name → p.tid ≠ tid := by
        rintro rfl hptid
        obtain ⟨m', hget, _⟩ := mutexUnlock_cases hunlock
        have hget' : getMutex k name' = some (some m') := hget
        have heq : m' = m := Option.some.inj ((getMutex_some hget).1.symm.trans hfind)
        subst heq
        have hppid : m'.assignedPid = p.parentPid := by
          refine hok.1 (p, m') ?_ hassigned
          simp [mutexPedido, he, hfase, Fase.ejecutando?, hget', htid, hptid]
        refine hkeeps ?_
        rw [he]
        refine ⟨rfl, p, by rw [hfase]; rfl, ?_⟩
        exact Tcb.ident_eq.mpr ⟨hppid.symm.trans hpid, hptid⟩
      have hunlocked := Posee.mutexUnlock (k := interruptQuantum k) h hunlock hother
      exact hunlocked.of_mutexes (by rw [hk']; rfl)
  | release pid' tcb k₁ k₂ hlibera hk₁ hrelease hk' =>
      have hother : tcb.tid ≠ tid := by
        intro hsame
        have hpid' : pid = pid' := by
          rw [← hpid]
          exact hok.2 _ hlibera m (List.mem_of_find?_eq_some hfind) hassigned
            (htid.trans hsame.symm)
        subst hpid'
        exact hkeeps (suelta_of_libera hlibera hsame)
      exact ((h.of_mutexes hk₁).releaseAllMutexes hrelease hother).of_mutexes hk'

/-- A thread that keeps running after its MUTEX_LOCK owns the mutex. -/
theorem posee_of_lock
    {p : Tcb} {x : Nat}
    (hfase : k.fase = .ejecutando p)
    (hstep : paso cfg k (.respuesta (.mutexLock name x)) = some k')
    (hkeeps : k'.fase = .planificar true (some p)) :
    Posee k' name p.parentPid p.tid := by
  obtain ⟨proximo, pcb, hrun, _, hsyscall⟩ := atenderMensaje_cases hstep
  rw [hrun, Fase.ejecutando.injEq] at hfase
  subst hfase
  obtain ⟨⟨k₁, reservado⟩, hlock, hk'⟩ := Option.bind_eq_some_iff.mp hsyscall
  simp only [Option.some.injEq] at hk'
  subst hk'
  rcases mutexLock_cases hlock with ⟨_, rfl, _⟩ |
    ⟨m, hget, ⟨_, rfl, _⟩ | ⟨hpid, _, rfl, rfl⟩ | ⟨_, _, _, rfl, _⟩⟩
  · cases hkeeps
  · cases hkeeps
  · obtain ⟨hfind, _, hfreed⟩ := getMutex_some hget
    refine ⟨Mutex.asignar proximo.tid m, ?_, hfreed, rfl, hpid, rfl⟩
    have hfound := find?_modifyFirst (p := fun m => m.name == name)
      (f := Mutex.asignar proximo.tid) (l := k.globalMutexes) (fun _ => rfl)
    have hfind : k.globalMutexes.find? (fun m => m.name == name) = some m := hfind
    rw [hfind] at hfound
    exact hfound
  · cases hkeeps

/-- A mutex has one owner. -/
theorem Posee.unique
    {pid' tid' : Nat}
    (h : Posee k name pid tid)
    (h' : Posee k name pid' tid') :
    pid = pid' ∧ tid = tid' := by
  obtain ⟨m, hfind, _, _, hpid, htid⟩ := h
  obtain ⟨m', hfind', _, _, hpid', htid'⟩ := h'
  have heq : m = m' := Option.some.inj (hfind.symm.trans hfind')
  subst heq
  exact ⟨hpid.symm.trans hpid', htid.symm.trans htid'⟩

/-- Along a guarded run the owner keeps the mutex until a step that may take it. -/
theorem Posee.run
    {es : List Evento}
    (h : Posee k name pid tid)
    (hc : Coherente k)
    (hrun : Run (fun a e b => Kernel.paso cfg a e = some b)
      (fun a e => DuenosRespetados a e ∧ ¬ Suelta a name pid tid e) k es k') :
    Posee k' name pid tid := by
  have hinv := hrun.invariant (I := fun a => Coherente a ∧ Posee a name pid tid) ⟨hc, h⟩ ?_
  · exact hinv.2
  rintro a b e ⟨hca, ha⟩ ⟨hok, hkeeps⟩ hstep
  exact ⟨(paso_mueve hca hstep).2, ha.paso hca.viejos hok hkeeps hstep⟩

end Ownership

/-- No two live threads have the same identifiers as long as no thread is created with
those of a live one. -/
theorem eq_of_ident_of_alcanza
    {cfg : Config μ} {es : List Evento} {k : Globals μ} {h h' : Hilo}
    (hrun : Alcanza cfg TidLibre es k)
    (hh : h ∈ lugares k)
    (hh' : h' ∈ lugares k)
    (hident : h.ident = h'.ident) :
    h = h' := by
  obtain ⟨memoria, path, size, hrun⟩ := hrun
  have hinv := hrun.invariant
    (I := fun a => Coherente a ∧ Pool.Distinct Hilo.ident (vista a))
    ⟨(solida_arranque cfg memoria path size).1, distinct_arranque memoria path size⟩
    (fun hx hok hstep => ⟨(paso_mueve hx.1 hstep).2, hok.paso hx.1 hx.2 hstep⟩)
  exact hinv.2.eq_of_mem hh hh' hident

/-- Whoever owns a mutex keeps it until it unlocks it, ends, or its process ends; until
then no other identifiers own the mutex, and only a MUTEX_LOCK under them succeeds. As
long as no thread is created with the identifiers of a live one, this is one thread:
nobody else holds the mutex, and only its own MUTEX_LOCK succeeds. -/
theorem mutex_owner_keeps_mutex
    {cfg : Config μ} {es fs : List Evento} {a c : Globals μ} {name : List Char} {pid tid : Nat}
    (ha : Alcanza cfg DuenosRespetados es a)
    (hown : Posee a name pid tid)
    (hrun : Run (fun a e b => paso cfg a e = some b)
      (fun k e => DuenosRespetados k e ∧ ¬ Suelta k name pid tid e) a fs c) :
    Posee c name pid tid ∧
    (∀ es' fs' a' pid' tid', Alcanza cfg DuenosRespetados es' a' → Posee a' name pid' tid' →
      Run (fun a e b => paso cfg a e = some b)
        (fun k e => DuenosRespetados k e ∧ ¬ Suelta k name pid' tid' e) a' fs' c →
      (pid' = pid ∧ tid' = tid) ∧
      ∀ es'' h h', Alcanza cfg TidLibre es'' c → h ∈ lugares c → h' ∈ lugares c →
        h.ident = (pid, tid) → h'.ident = (pid', tid') → h' = h) ∧
    ∀ p x b, DuenosRespetados c (.respuesta (.mutexLock name x)) → c.fase = .ejecutando p →
      paso cfg c (.respuesta (.mutexLock name x)) = some b →
      b.fase = .planificar true (some p) →
      p.ident = (pid, tid) ∧
      ∀ es'' h, Alcanza cfg TidLibre es'' c → h ∈ lugares c → h.ident = (pid, tid) →
        p.hilo = h := by
  have hc : Coherente c := by
    refine hrun.invariant (I := Coherente) ha.solida.1 ?_
    intro x y e hx _ hstep
    exact (paso_mueve hx hstep).2
  have hholds : Posee c name pid tid := hown.run ha.solida.1 hrun
  refine ⟨hholds, ?_, ?_⟩
  · intro es' fs' a' pid' tid' ha' hown' hrun'
    obtain ⟨rfl, rfl⟩ := (hown'.run ha'.solida.1 hrun').unique hholds
    refine ⟨⟨rfl, rfl⟩, ?_⟩
    intro es'' h h' hlibre hh hh' hident hident'
    exact eq_of_ident_of_alcanza hlibre hh' hh (hident'.trans hident.symm)
  · intro p x b hok hfase hstep hkeeps
    have hafter := hholds.paso hc.viejos hok (fun h => h) hstep
    obtain ⟨hpid, htid⟩ := (posee_of_lock hfase hstep hkeeps).unique hafter
    have hident : p.ident = (pid, tid) := Tcb.ident_eq.mpr ⟨hpid, htid⟩
    refine ⟨hident, ?_⟩
    intro es'' h hlibre hh hsame
    have hrunning : p.hilo ∈ lugares c := by
      simp [lugares, hfase, Fase.corriendo]
    exact eq_of_ident_of_alcanza hlibre hrunning hh (hident.trans hsame.symm)

/-- The first thread creates a mutex and a process, locks the mutex and is preempted. -/
def mutexTomado : List Evento :=
  [.despachar, .respuesta (.mutexCreate ['m'] 0), .despachar,
    .respuesta (.processCreate ['b'] 16 0), .despachar, .respuesta (.mutexLock ['m'] 0),
    .despachar, .respuesta (.kernelInterruption 0 0)]

theorem mutex_owner_keeps_mutex_mutexTomado :
    ∃ a c, execute (paso (siempreOk .fifo)) (arranque (siempreOk .fifo) () ['a'] 16)
        mutexTomado = some a ∧
      execute (paso (siempreOk .fifo)) a
        [.despachar, .respuesta (.kernelInterruption 0 1), .despachar] = some c ∧
      Posee c ['m'] 0 0 :=
  ⟨_, _, (Option.some_get (by decide)).symm, (Option.some_get (by decide)).symm,
    (mutex_owner_keeps_mutex (alcanza_of_isSome () ['a'] 16 (by decide) (by decide)) (by decide)
      (run_of_isSome (paso (siempreOk .fifo)) id (by decide) (by decide))).1⟩

/-- The first thread of the other process unlocks the mutex of the first one. -/
theorem mutex_lost_to_other_process :
    ∃ a b, Alcanza (siempreOk .fifo) anyLabel (mutexTomado ++ [.despachar]) a ∧
      (∃ p ∈ a.fase.ejecutando?, p.ident = (1, 0)) ∧
      paso (siempreOk .fifo) a (.respuesta (.mutexUnlock ['m'] 0)) = some b ∧
      Posee a ['m'] 0 0 ∧ ¬ Suelta a ['m'] 0 0 (.respuesta (.mutexUnlock ['m'] 0)) ∧
      ¬ Posee b ['m'] 0 0 :=
  ⟨_, _, alcanza_of_isSome () ['a'] 16 (by decide) (by decide), by decide,
    (Option.some_get (by decide)).symm, by decide, by decide, by decide⟩

end Kernel
end SinIdeas
