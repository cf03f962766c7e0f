import SinIdeas.Kernel.Vista

/-!
# THREAD_CANCEL and THREAD_EXIT

A cancelled thread should end like one that executes THREAD_EXIT, only that it
has to be withdrawn from where it waits and that the caller keeps running. The
handler of THREAD_CANCEL undoes the joins on the thread and nothing else.
-/

namespace SinIdeas
namespace Kernel

variable {μ : Type}

/-- The thread withdrawn from READY, BLOCKED and the wait queues, as if it ran. -/
def retirar (u : Tcb) (k : Globals μ) : Globals μ :=
  { k with
    listReadyTcb := (removeTcbFromList k.listReadyTcb u.parentPid u.tid).2
    listBlockedTcb := (removeTcbFromList k.listBlockedTcb u.parentPid u.tid).2
    globalMutexes := k.globalMutexes.map (fun m =>
      { m with blockedTcbs := (removeTcbFromList m.blockedTcbs u.parentPid u.tid).2 }) }

/-- The threads of a list other than `u`. -/
def otros (u : Tcb) (l : List Tcb) : List Tcb :=
  l.filter (fun t => t.ident ≠ u.ident)

/-- `k'` is `k` after the thread `u` was ended on behalf of `p`, which keeps running: `u`
is in EXIT only, memoria has deleted its context, it owns no mutex and waits for none, the
threads joined on it are READY, the semaphore follows READY, and the others are as after a
THREAD_EXIT of `u`. -/
structure TerminaComoExit (cfg : Config μ) (k : Globals μ) (p u : Tcb) (k' : Globals μ) :
    Prop where
  salida : ∃ t ∈ k'.listExitTcb, t.ident = u.ident
  fuera : ∀ t ∈ k'.listNewTcb ++ (k'.listReadyTcb ++ k'.listBlockedTcb), t.ident ≠ u.ident
  memoria : k'.memoria = (cfg.deleteThreadMemory k.memoria u).1
  sinMutex : ∀ m ∈ k'.globalMutexes,
    ¬ (m.assigned = true ∧ m.assignedPid = u.parentPid ∧ m.assignedTid = u.tid)
  sinCola : ∀ m ∈ k'.globalMutexes, ∀ t ∈ m.blockedTcbs, t.ident ≠ u.ident
  joins : ∀ j ∈ k.listTcbJoins, j.blockingTcb.ident = u.ident →
    ∃ t ∈ k'.listReadyTcb, t.ident = j.blockedTcb.ident
  semaforo : k'.semThreadCount + k.listReadyTcb.length =
    k.semThreadCount + k'.listReadyTcb.length
  resto : ∃ e, threadExit cfg u (retirar u k) = some e ∧
    otros u k'.listNewTcb = otros u e.listNewTcb ∧
    otros u k'.listReadyTcb = otros u e.listReadyTcb ∧
    otros u k'.listBlockedTcb = otros u e.listBlockedTcb ∧
    otros u k'.listExitTcb = otros u e.listExitTcb ∧
    k'.globalMutexes = e.globalMutexes
  sigue : k'.fase = .planificar true (some p)

section Joins

variable {cfg : Config μ} {k : Globals μ}

/-- Who is in READY or in BLOCKED is still in one of them after a move from BLOCKED to
READY. -/
theorem desbloquear_permanece
    {i : Nat × Nat} (pid tid : Nat)
    (h : ∃ t ∈ k.listReadyTcb ++ k.listBlockedTcb, t.ident = i) :
    ∃ t ∈ (desbloquear k pid tid).listReadyTcb ++ (desbloquear k pid tid).listBlockedTcb,
      t.ident = i := by
  obtain ⟨t, ht, hi⟩ := h
  rcases moveTcbBetweenLists_cases k.listBlockedTcb k.listReadyTcb pid tid .ready with
    ⟨l, x, m, hsplit, _, _, _, _, hmove⟩ | ⟨_, hmove⟩
  · simp only [desbloquear, hmove]
    rw [hsplit] at ht
    simp only [List.mem_append, List.mem_cons] at ht
    rcases ht with ht | ht | rfl | ht
    · exact ⟨t, by simp [ht], hi⟩
    · exact ⟨t, by simp [ht], hi⟩
    · exact ⟨{ t with state := .ready }, by simp, hi⟩
    · exact ⟨t, by simp [ht], hi⟩
  · simp only [desbloquear, hmove]
    exact ⟨t, ht, hi⟩

/-- The loop over the joins takes nobody out of both lists. -/
theorem unlockTcbJoinsFrom_permanece
    {i : Nat × Nat} (pid tid : Nat) (visitados js : List TcbJoin)
    (h : ∃ t ∈ k.listReadyTcb ++ k.listBlockedTcb, t.ident = i) :
    ∃ t ∈ (unlockTcbJoinsFrom pid tid visitados js k).listReadyTcb ++
        (unlockTcbJoinsFrom pid tid visitados js k).listBlockedTcb, t.ident = i := by
  induction js generalizing visitados k with
  | nil =>
      exact h
  | cons j js ih =>
      unfold unlockTcbJoinsFrom
      split_ifs
      · apply ih
        exact desbloquear_permanece j.blockedTcb.parentPid j.blockedTcb.tid h
      · exact ih _ h

/-- What the loop over the joins leaves alone: EXIT, NEW, memoria and the mutexes. -/
theorem unlockTcbJoinsFrom_deja
    (pid tid : Nat) (visitados js : List TcbJoin) :
    (unlockTcbJoinsFrom pid tid visitados js k).listExitTcb = k.listExitTcb ∧
      (unlockTcbJoinsFrom pid tid visitados js k).listNewTcb = k.listNewTcb ∧
      (unlockTcbJoinsFrom pid tid visitados js k).memoria = k.memoria ∧
      (unlockTcbJoinsFrom pid tid visitados js k).globalMutexes = k.globalMutexes := by
  induction js generalizing visitados k with
  | nil =>
      exact ⟨rfl, rfl, rfl, rfl⟩
  | cons j js ih =>
      unfold unlockTcbJoinsFrom
      split_ifs
      · exact ih visitados
      · exact ih (visitados ++ [j])

/-- All that a THREAD_CANCEL of a READY or BLOCKED thread does: the thread stays in one of
these lists, and EXIT, memoria and the mutexes are the same. -/
theorem threadCancel_deja
    {k' : Globals μ} {p u : Tcb}
    (hu : u ∈ k.listReadyTcb ++ k.listBlockedTcb)
    (hstep : paso cfg k (.respuesta (.threadCancel u.tid)) = some k')
    (hfase : k.fase = .ejecutando p) (hpid : u.parentPid = p.parentPid) :
    (∃ t ∈ k'.listReadyTcb ++ k'.listBlockedTcb, t.ident = u.ident) ∧
      k'.listExitTcb = k.listExitTcb ∧ k'.memoria = k.memoria ∧
      k'.globalMutexes = k.globalMutexes := by
  obtain ⟨proximo, pid, hrun, _, hsyscall⟩ := atenderMensaje_cases hstep
  obtain rfl : proximo = p := by
    rw [hfase] at hrun
    exact (Fase.ejecutando.inj hrun).symm
  obtain ⟨k₁, hcancel, hk'⟩ := Option.bind_eq_some_iff.mp hsyscall
  obtain rfl := Option.some.inj hk'
  rcases threadCancel_cases hcancel with ⟨tcb, _, rfl⟩ | ⟨_, _, rfl⟩
  · obtain ⟨hexit, _, hmemoria, hmutexes⟩ := unlockTcbJoinsFrom_deja (k := interruptQuantum k)
      tcb.parentPid tcb.tid [] (interruptQuantum k).listTcbJoins
    refine ⟨?_, hexit, hmemoria, hmutexes⟩
    exact unlockTcbJoinsFrom_permanece _ _ _ _ ⟨u, hu, rfl⟩
  · exact ⟨⟨u, hu, rfl⟩, rfl, rfl, rfl⟩

end Joins

/-- No THREAD_CANCEL of a READY or BLOCKED thread of the caller's process ends it. -/
theorem thread_cancel_never_ends_its_target
    {cfg : Config μ} {k : Globals μ} {p u : Tcb}
    (hfase : k.fase = .ejecutando p)
    (hpid : u.parentPid = p.parentPid)
    (hu : u ∈ k.listReadyTcb ++ k.listBlockedTcb) :
    ¬ ∃ k', paso cfg k (.respuesta (.threadCancel u.tid)) = some k' ∧
      TerminaComoExit cfg k p u k' := by
  rintro ⟨k', hstep, htermina⟩
  obtain ⟨⟨t, ht, hident⟩, _, _, _⟩ := threadCancel_deja hu hstep hfase hpid
  exact htermina.fuera t (List.mem_append_right _ ht) hident

/-- The first thread creates another one, which is READY, and runs on. -/
def sucesosDosHilos : List Evento :=
  [.despachar, .respuesta (.threadCreate ['b'] 0), .despachar]

/-- The other thread while it is READY. -/
def segundoHilo : Tcb :=
  { dir := 1, tid := 1, parentPid := 0, priority := 0, state := .ready, filePath := ['b'] }

theorem thread_cancel_never_ends_its_target_ready :
    ∃ k p, Alcanza (siempreOk .fifo) Lib.anyLabel sucesosDosHilos k ∧
      k.fase = .ejecutando p ∧ segundoHilo ∈ k.listReadyTcb ∧
      ¬ ∃ k', paso (siempreOk .fifo) k (.respuesta (.threadCancel segundoHilo.tid)) = some k' ∧
        TerminaComoExit (siempreOk .fifo) k p segundoHilo k' := by
  have hrun : Alcanza (siempreOk .fifo) Lib.anyLabel sucesosDosHilos _ :=
    alcanza_of_isSome () ['a'] 16 (by decide) (by decide)
  refine ⟨_, _, hrun, rfl, by decide, ?_⟩
  exact thread_cancel_never_ends_its_target rfl rfl (by decide)

/-- The READY thread is still there after it was cancelled. -/
theorem thread_cancel_leaves_ready :
    ¬ ∀ (cfg : Config Unit) (es : List Evento) (k : Globals Unit) (p u : Tcb),
      Alcanza cfg Lib.anyLabel es k → k.fase = .ejecutando p → u.parentPid = p.parentPid →
      u ∈ k.listReadyTcb ++ k.listBlockedTcb →
        ∃ k', paso cfg k (.respuesta (.threadCancel u.tid)) = some k' ∧
          TerminaComoExit cfg k p u k' := by
  intro h
  have hrun : Alcanza (siempreOk .fifo) Lib.anyLabel sucesosDosHilos _ :=
    alcanza_of_isSome () ['a'] 16 (by decide) (by decide)
  obtain ⟨k', hstep, htermina⟩ := h _ _ _ _ segundoHilo hrun rfl rfl (by decide)
  obtain rfl := Option.some.inj hstep
  exact absurd rfl (htermina.fuera segundoHilo (by decide))

end Kernel
end SinIdeas
