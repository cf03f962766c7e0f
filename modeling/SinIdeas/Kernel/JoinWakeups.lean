import SinIdeas.Kernel.ThreadIds

/-!
# Joins

A thread that joined another one waits until that one ends by itself. The join
list is undone by THREAD_EXIT and THREAD_CANCEL, but not when a thread goes to EXIT
for a MUTEX_LOCK on a mutex that does not exist: whoever joined it waits for ever.
-/

namespace SinIdeas
namespace Kernel

open Lib

variable {μ : Type}

/-- The thread `h` is blocked by a THREAD_JOIN on the thread `u`. -/
def EsperaJoin (k : Globals μ) (h u : Hilo) : Prop :=
  h ∈ k.listBlockedTcb.map Tcb.hilo ∧
    ∃ j ∈ k.listTcbJoins, j.blockedTcb.hilo = h ∧ j.blockingTcb.hilo = u

/-- The mutexes that a THREAD_EXIT of the thread `u` hands on: they are owned under its
TID and others wait for them. -/
def mutexesCedidos (k : Globals μ) (u : Hilo) : Evento → List Mutex
  | .respuesta (.threadExit _) => k.globalMutexes.filter
      (fun m => m.assigned = true ∧ m.assignedTid = u.tid ∧ m.blockedTcbs ≠ [])
  | _ => []

/-- A thread with the identifiers of `h` is in the queue of one of the mutexes. -/
def EsperaMutex (mutexes : List Mutex) (h : Hilo) : Prop :=
  ∃ m ∈ mutexes, ∃ t ∈ m.blockedTcbs, t.ident = h.ident

/-- The live thread `u` ends by itself: its THREAD_EXIT, a THREAD_CANCEL of it, or
its MUTEX_LOCK on a mutex that does not exist. -/
def TerminaPorSi (k : Globals μ) (u : Hilo) : Evento → Prop
  | .respuesta (.threadExit _) => ∃ p ∈ k.fase.ejecutando?, p.hilo = u
  | .respuesta (.threadCancel tid) =>
      u ∈ lugares k ∧ u.tid = tid ∧ ∃ p ∈ k.fase.ejecutando?, p.parentPid = u.pid
  | .respuesta (.mutexLock name _) =>
      getMutex k name = some none ∧ ∃ p ∈ k.fase.ejecutando?, p.hilo = u
  | _ => False

/-- The joins on the running thread when it locks a mutex that does not exist. -/
def joinsColgados (k : Globals μ) : Evento → List TcbJoin
  | .respuesta (.mutexLock name _) =>
      match k.fase.ejecutando?, getMutex k name with
      | some p, some none => k.listTcbJoins.filter (fun j => j.blockingTcb.ident = p.ident)
      | _, _ => []
  | _ => []

/-- The event creates no thread with identifiers that a live thread has or a join
still names, and no thread that was joined locks a mutex that does not exist. -/
def JoinsVivos (k : Globals μ) (e : Evento) : Prop :=
  TidLibre k e ∧ (∀ i ∈ tidNuevo k e, ∀ j ∈ k.listTcbJoins, j.blockingTcb.ident ≠ i) ∧
    joinsColgados k e = []

instance (k : Globals μ) (e : Evento) : Decidable (JoinsVivos k e) :=
  inferInstanceAs (Decidable (_ ∧ (∀ i ∈ tidNuevo k e, ∀ j ∈ k.listTcbJoins,
    j.blockingTcb.ident ≠ i) ∧ _))

/-- The entries of the join list: the thread that joined is in BLOCKED, the one that
it joined belongs to its process, and no other live thread has its identifiers. -/
structure JoinsFirmes (k : Globals μ) : Prop where
  coherente : Coherente k
  solida : Pool.Sound Hilo.ident (vista k)
  distintos : Pool.Distinct Hilo.ident (vista k)
  bloqueados : ∀ j ∈ k.listTcbJoins, j.blockedTcb.hilo ∈ (vista k).blocked
  mismoPid : ∀ j ∈ k.listTcbJoins, j.blockingTcb.parentPid = j.blockedTcb.parentPid
  destinos : ∀ j ∈ k.listTcbJoins, ∀ h ∈ (vista k).threads,
    h.ident = j.blockingTcb.ident → h = j.blockingTcb.hilo

/-- What an event does to the join list. -/
inductive EfectoJoins (k : Globals μ) (e : Evento) (k' : Globals μ) : Prop
  | igual :
      (∀ pid tid, DeshaceJoins k e pid tid → k.listTcbJoins = []) →
      k'.listTcbJoins = k.listTcbJoins →
      EfectoJoins k e k'
  | join (p blocking : Tcb) (tid : Nat) :
      e = .respuesta (.threadJoin tid) →
      k.fase = .ejecutando p →
      findTcbFromTid k tid p.parentPid = some blocking →
      k'.listTcbJoins = k.listTcbJoins ++ [{ blockedTcb := p, blockingTcb := blocking }] →
      k'.listBlockedTcb = k.listBlockedTcb ++ [p] →
      EfectoJoins k e k'
  | deshace (pid tid : Nat) :
      DeshaceJoins k e pid tid →
      k'.listTcbJoins = k.listTcbJoins.filter
        (fun j => ¬ (j.blockingTcb.tid = tid ∧ j.blockingTcb.parentPid = pid)) →
      EfectoJoins k e k'

section Effects

variable {cfg : Config μ} {k k' : Globals μ} {e : Evento}

/-- An event undoes the joins on one thread at most. -/
theorem DeshaceJoins.unique
    {pid tid pid' tid' : Nat}
    (h : DeshaceJoins k e pid tid)
    (h' : DeshaceJoins k e pid' tid') :
    pid' = pid ∧ tid' = tid := by
  obtain ⟨p, hp, hpid, hcases⟩ := h
  obtain ⟨p', hp', hpid', hcases'⟩ := h'
  rw [hp, Fase.ejecutando.injEq] at hp'
  subst hp'
  refine ⟨hpid'.symm.trans hpid, ?_⟩
  rcases hcases with ⟨x, rfl, htid⟩ | rfl
  · rcases hcases' with ⟨_, _, htid'⟩ | hno
    · exact htid'.symm.trans htid
    · cases hno
  · rcases hcases' with ⟨_, hno, _⟩ | heq
    · cases hno
    · cases heq
      rfl

theorem releaseAllMutexes_joins
    {tcb : Tcb}
    (h : releaseAllMutexes tcb k = some k') :
    k'.listTcbJoins = k.listTcbJoins := by
  refine releaseAllMutexes_invariant (I := fun a => a.listTcbJoins = k.listTcbJoins) h rfl ?_
  intro a b m ha _ _ _ _ hunlock
  obtain ⟨m, _, ⟨_, rfl⟩ | ⟨_, _, ⟨_, _, _, rfl⟩ | ⟨_, rfl⟩⟩⟩ := mutexUnlock_cases hunlock
  · exact ha
  · exact ha
  · exact ha

theorem finalizarHilo_joins
    {pid i : Nat} {avance : Avance}
    (hviejos : k.listaTcbsBlockeados = [])
    (h : finalizarHilo cfg pid i k = some (k', avance)) :
    k'.listTcbJoins = k.listTcbJoins := by
  rcases finalizarHilo_cases hviejos h with ⟨_, _, rfl⟩ | ⟨tcb, _, _, ⟨_, _, rfl⟩ |
    ⟨_, _, hrelease⟩⟩
  · rfl
  · rfl
  · exact (releaseAllMutexes_joins hrelease).trans rfl

theorem reanudarHilo_joins
    {pid i : Nat}
    (hviejos : k.listaTcbsBlockeados = [])
    (h : reanudarHilo pid i k = some k') :
    k'.listTcbJoins = k.listTcbJoins := by
  obtain ⟨n, tcb, _, _, hrelease⟩ := reanudarHilo_cases hviejos h
  exact (releaseAllMutexes_joins hrelease).trans rfl

theorem terminarProceso_joins
    {causa : Causa} {pid : Nat} :
    (terminarProceso cfg causa pid k).listTcbJoins = k.listTcbJoins := by
  obtain ⟨pcbs, salida, k₁, hk₁, _, heq⟩ := terminarProceso_cases cfg causa pid k
  rw [heq]
  cases causa with
  | processExit =>
      simp only [tryCreateNewProcessLoop]
      rw [tryCreateRounds_admite, hk₁]
  | segmentationFault =>
      rw [hk₁]

theorem threadExit_joins
    {p : Tcb}
    (h : threadExit cfg p k = some k') :
    k'.listTcbJoins = k.listTcbJoins.filter
      (fun j => ¬ (j.blockingTcb.tid = p.tid ∧ j.blockingTcb.parentPid = p.parentPid)) := by
  obtain ⟨pcbs, k₁, hk₁, _, _, hrelease⟩ := threadExit_cases h
  rw [releaseAllMutexes_joins hrelease, unlockTcbJoins, unlockTcbJoinsFrom_joins rfl,
    List.nil_append, hk₁]

theorem efectoJoins_atenderSyscall
    {proximo : Tcb} {pid : Nat} {m : Mensaje Nat}
    (hrun : k.fase = .ejecutando proximo)
    (h : atenderSyscall cfg proximo pid m k = some k') :
    EfectoJoins k (.respuesta m) k' := by
  -- only two of the messages undo joins
  have hno : (∀ x, m ≠ .threadExit x) → (∀ tid, m ≠ .threadCancel tid) →
      ∀ q t, DeshaceJoins k (.respuesta m) q t → k.listTcbJoins = [] := by
    rintro hexit hcancel q t ⟨_, _, _, ⟨x, hx, _⟩ | hx⟩
    · cases hx
      exact absurd rfl (hexit x)
    · cases hx
      exact absurd rfl (hcancel t)
  cases m with
  | processCreate path size priority =>
      cases h
      refine .igual (hno (by simp) (by simp)) ?_
      simp only [seguirCon]
      rw [processCreate_admite]
  | processExit x =>
      cases h
      exact .igual (hno (by simp) (by simp)) rfl
  | segmentationFault x y =>
      cases h
      exact .igual (hno (by simp) (by simp)) rfl
  | threadCreate path priority =>
      cases h
      refine .igual (hno (by simp) (by simp)) ?_
      simp only [seguirCon]
      rw [createThread_admite]
  | threadJoin tid =>
      cases h
      rcases threadJoin_cases tid proximo k with ⟨_, heq⟩ | ⟨blocking, hfind, heq⟩
      · rw [heq]
        exact .igual (hno (by simp) (by simp)) rfl
      · rw [heq]
        exact .join proximo blocking tid rfl hrun hfind rfl rfl
  | threadCancel tid =>
      obtain ⟨k₁, hcancel, hk'⟩ := Option.bind_eq_some_iff.mp h
      cases hk'
      rcases threadCancel_cases hcancel with ⟨tcb, hfind, rfl⟩ | ⟨_, hnil, rfl⟩
      · obtain ⟨hpid, htid, _⟩ := findTcbFromTid_some hfind
        rw [hpid, htid]
        refine .deshace proximo.parentPid tid ⟨proximo, hrun, rfl, Or.inr rfl⟩ ?_
        exact unlockTcbJoinsFrom_joins rfl
      · exact .igual (fun _ _ _ => hnil) rfl
  | threadExit x =>
      obtain ⟨k₁, hexit, hk'⟩ := Option.bind_eq_some_iff.mp h
      cases hk'
      have hjoins := threadExit_joins hexit
      exact .deshace proximo.parentPid proximo.tid
        ⟨proximo, hrun, rfl, Or.inl ⟨x, rfl, rfl⟩⟩ hjoins
  | mutexCreate name x =>
      obtain ⟨k₁, hcreate, hk'⟩ := Option.bind_eq_some_iff.mp h
      cases hk'
      refine .igual (hno (by simp) (by simp)) ?_
      rcases mutexCreate_cases hcreate with rfl | ⟨_, rfl⟩ <;> rfl
  | mutexLock name x =>
      obtain ⟨⟨k₁, reservado⟩, hlock, hk'⟩ := Option.bind_eq_some_iff.mp h
      cases hk'
      refine .igual (hno (by simp) (by simp)) ?_
      rcases mutexLock_cases hlock with ⟨_, rfl, salida, rfl⟩ |
        ⟨m, _, ⟨_, rfl, rfl⟩ | ⟨_, _, rfl, rfl⟩ | ⟨_, _, _, rfl, rfl⟩⟩ <;> rfl
  | mutexUnlock name x =>
      obtain ⟨k₁, hunlock, hk'⟩ := Option.bind_eq_some_iff.mp h
      cases hk'
      refine .igual (hno (by simp) (by simp)) ?_
      obtain ⟨m, _, ⟨_, rfl⟩ | ⟨_, _, ⟨_, _, _, rfl⟩ | ⟨_, rfl⟩⟩⟩ := mutexUnlock_cases hunlock <;>
        rfl
  | dumpMemory x y =>
      cases h
      exact .igual (hno (by simp) (by simp)) rfl
  | io milisegundos =>
      obtain ⟨tcb, _, hk'⟩ := Option.bind_eq_some_iff.mp h
      cases hk'
      exact .igual (hno (by simp) (by simp)) rfl
  | kernelInterruption x y =>
      cases h
      exact .igual (hno (by simp) (by simp)) rfl

/-- Every event does one of these to the join list. -/
theorem efectoJoins_paso
    (hviejos : k.listaTcbsBlockeados = [])
    (h : paso cfg k e = some k') :
    EfectoJoins k e k' := by
  cases e with
  | despachar =>
      obtain ⟨seguir, previo, proximo, k₁, _, _, rfl, hcases⟩ := despachar_cases h
      refine .igual (by rintro _ _ ⟨_, _, _, ⟨_, hno, _⟩ | hno⟩ <;> cases hno) ?_
      rcases hcases with ⟨rfl, rfl, rfl⟩ | ⟨rfl, l, m, n, q, _, _, rfl⟩ <;> rfl
  | respuesta m =>
      obtain ⟨proximo, pid, hfase, _, hsyscall⟩ := atenderMensaje_cases h
      have heffect : EfectoJoins (interruptQuantum k) (.respuesta m) k' :=
        efectoJoins_atenderSyscall hfase hsyscall
      cases heffect with
      | igual hno hjoins => exact .igual hno hjoins
      | join p blocking tid he hp hfind hjoins hblocked =>
          exact .join p blocking tid he hp hfind hjoins hblocked
      | deshace pid tid hdeshace hjoins => exact .deshace pid tid hdeshace hjoins
  | seguirFin =>
      refine .igual (by rintro _ _ ⟨_, _, _, ⟨_, hno, _⟩ | hno⟩ <;> cases hno) ?_
      rcases seguirFin_cases h with
        ⟨causa, proximo, i, pid, k₁, avance, _, _, hround, hcases⟩ |
        ⟨causa, proximo, i, pid, k₁, _, _, hround, rfl⟩
      · have hjoins := finalizarHilo_joins hviejos hround
        rcases hcases with ⟨_, rfl⟩ | ⟨_, rfl⟩ | ⟨_, rfl⟩
        · exact hjoins
        · exact hjoins
        · exact terminarProceso_joins.trans hjoins
      · have hjoins := reanudarHilo_joins hviejos hround
        exact hjoins
  | ioFin =>
      refine .igual (by rintro _ _ ⟨_, _, _, ⟨_, hno, _⟩ | hno⟩ <;> cases hno) ?_
      obtain ⟨request, resto, _, ⟨l, t, m, _, _, _, rfl⟩ | ⟨_, rfl⟩⟩ := ioFin_cases h <;> rfl
  | dumpRespuesta j r =>
      refine .igual (by rintro _ _ ⟨_, _, _, ⟨_, hno, _⟩ | hno⟩ <;> cases hno) ?_
      obtain ⟨d, _, _, ⟨_, rfl⟩ | ⟨_, _, rfl⟩ | ⟨_, rfl⟩⟩ := dumpRespuesta_cases h <;> rfl
  | dumpSeguir j =>
      refine .igual (by rintro _ _ ⟨_, _, _, ⟨_, hno, _⟩ | hno⟩ <;> cases hno) ?_
      obtain ⟨d, _, ⟨pid, i, k₁, avance, _, hround, hcases⟩ | ⟨pid, i, k₁, _, hround, rfl⟩⟩ :=
        dumpSeguir_cases h
      · have hjoins := finalizarHilo_joins hviejos hround
        rcases hcases with ⟨_, rfl⟩ | ⟨_, rfl⟩ | ⟨_, rfl⟩ <;> exact hjoins
      · have hjoins := reanudarHilo_joins hviejos hround
        exact hjoins

end Effects

section Steps

variable {cfg : Config μ} {k k' : Globals μ} {e : Evento}

/-- The waits for joins are the entries of the join list. -/
theorem mem_motivos_join
    {i : Nat × Nat} {pid tid : Nat} :
    (i, Motivo.join pid tid) ∈ motivos k ↔
      ∃ j ∈ k.listTcbJoins, j.blockedTcb.ident = i ∧ j.blockingTcb.ident = (pid, tid) := by
  simp [motivos, TcbJoin.espera, Mutex.esperas, IoRequest.espera, Dump.espera?, Tcb.ident]

/-- With unique identifiers no second TCB is taken out of READY. -/
theorem gemeloEnReady_of_distinct
    (hd : Pool.Distinct Hilo.ident (vista k))
    (h : despachar cfg k = some k') :
    gemeloEnReady cfg k = none := by
  obtain ⟨seguir, previo, proximo, k₁, hfase, helegir, _, hcases⟩ := despachar_cases h
  have hgemelo : gemeloEnReady cfg k =
      findTcbInList k₁.listReadyTcb proximo.parentPid proximo.tid := by
    simp [gemeloEnReady, hfase, helegir]
  rw [hgemelo]
  refine List.find?_eq_none.mpr (fun t ht hes => ?_)
  have hident : t.hilo.ident = proximo.hilo.ident :=
    Tcb.ident_eq.mpr (Tcb.es_iff.mp hes)
  unfold Pool.Distinct at hd
  rcases hcases with ⟨rfl, rfl, rfl⟩ | ⟨rfl, l, m, n, q, hready, _, rfl⟩
  · have hthreads : (vista k₁).threads =
        proximo.hilo :: ((vista k₁).ready ++ (vista k₁).blocked) := by
      simp [Pool.threads, vista, hfase, Fase.corriendo]
    rw [hthreads, List.map_cons] at hd
    refine (List.nodup_cons.mp hd).1 ?_
    rw [← hident]
    refine List.mem_map_of_mem (List.mem_append_left _ ?_)
    exact List.mem_map_of_mem ht
  · have hperm : (vista k).threads.Perm (proximo.hilo ::
        ((l ++ m).map Tcb.hilo ++ (vista k).blocked)) := by
      simp only [Pool.threads, vista, hfase, Fase.corriendo, hready, Option.toList,
        List.nil_append, List.map_append, List.map_cons, List.append_assoc, List.cons_append]
      exact List.perm_middle
    have hd := (hperm.map Hilo.ident).nodup_iff.mp hd
    rw [List.map_cons] at hd
    refine (List.nodup_cons.mp hd).1 ?_
    rw [← hident]
    exact List.mem_map_of_mem (List.mem_append_left _ (List.mem_map_of_mem ht))

/-- An entry of the join list after the event was there before, and the event does not
undo it, or it is the one of a THREAD_JOIN. -/
theorem EfectoJoins.mem
    {j : TcbJoin}
    (h : EfectoJoins k e k')
    (hj : j ∈ k'.listTcbJoins) :
    (j ∈ k.listTcbJoins ∧ ¬ DeshaceJoins k e j.blockingTcb.parentPid j.blockingTcb.tid) ∨
    (∃ tid, e = .respuesta (.threadJoin tid) ∧ k.fase = .ejecutando j.blockedTcb ∧
      findTcbFromTid k tid j.blockedTcb.parentPid = some j.blockingTcb ∧
      k'.listBlockedTcb = k.listBlockedTcb ++ [j.blockedTcb]) := by
  cases h with
  | igual hno hjoins =>
      rw [hjoins] at hj
      refine Or.inl ⟨hj, fun hdeshace => ?_⟩
      rw [hno _ _ hdeshace] at hj
      cases hj
  | join p blocking tid he hp hfind hjoins hblocked =>
      rw [hjoins] at hj
      rcases List.mem_append.mp hj with hj | hj
      · refine Or.inl ⟨hj, ?_⟩
        rw [he]
        rintro ⟨_, _, _, ⟨_, hno, _⟩ | hno⟩
        · cases hno
        · cases hno
      · rw [List.mem_singleton.mp hj]
        exact Or.inr ⟨tid, he, hp, hfind, hblocked⟩
  | deshace pid tid hdeshace hjoins =>
      rw [hjoins] at hj
      obtain ⟨hj, hother⟩ := List.mem_filter.mp hj
      refine Or.inl ⟨hj, fun hdeshace' => ?_⟩
      obtain ⟨hpid, htid⟩ := hdeshace.unique hdeshace'
      simp [hpid, htid] at hother

/-- An entry that the event does not undo stays. -/
theorem EfectoJoins.mem_of_not
    {j : TcbJoin}
    (h : EfectoJoins k e k')
    (hj : j ∈ k.listTcbJoins)
    (hno : ¬ DeshaceJoins k e j.blockingTcb.parentPid j.blockingTcb.tid) :
    j ∈ k'.listTcbJoins := by
  cases h with
  | igual _ hjoins =>
      rw [hjoins]
      exact hj
  | join p blocking tid _ _ _ hjoins _ =>
      rw [hjoins]
      exact List.mem_append_left _ hj
  | deshace pid tid hdeshace hjoins =>
      rw [hjoins]
      refine List.mem_filter.mpr ⟨hj, ?_⟩
      simp only [decide_eq_true_eq]
      rintro ⟨rfl, rfl⟩
      exact hno hdeshace

/-- Who joined another thread stays blocked until the event that undoes its join. -/
theorem JoinsFirmes.join_paso
    {j : TcbJoin}
    (hk : JoinsFirmes k)
    (hok : TidLibre k e)
    (h : paso cfg k e = some k')
    (hj : j ∈ k.listTcbJoins) :
    (j ∈ k'.listTcbJoins ∧ j.blockedTcb.hilo ∈ (vista k').blocked) ∨
    (DeshaceJoins k e j.blockingTcb.parentPid j.blockingTcb.tid ∧
      j.blockedTcb.hilo ∈ (vista k').ready) := by
  have heffect := efectoJoins_paso hk.coherente.viejos h
  have hwait : (j.blockedTcb.hilo.ident,
      Motivo.join j.blockingTcb.parentPid j.blockingTcb.tid) ∈ (vista k).waits :=
    mem_motivos_join.mpr ⟨j, hj, rfl, rfl⟩
  have hwoken := (paso_mueve hk.coherente h).1.woken hk.solida hk.distintos ?_ ?_
    (hk.bloqueados j hj) hwait
  · rcases hwoken with ⟨hblocked, hwaits⟩ | ⟨⟨a, hwake⟩, hready⟩
    · -- a join with that target is left, so the event does not undo them
      refine Or.inl ⟨heffect.mem_of_not hj (fun hdeshace => ?_), hblocked⟩
      obtain ⟨j', hj', _, htarget⟩ := mem_motivos_join.mp hwaits
      rcases heffect.mem hj' with ⟨_, hno⟩ | ⟨_, he, _⟩
      · rw [Tcb.ident_eq] at htarget
        rw [htarget.1, htarget.2] at hno
        exact hno hdeshace
      · obtain ⟨_, _, _, ⟨_, hno, _⟩ | hno⟩ := hdeshace
        · rw [he] at hno
          cases hno
        · rw [he] at hno
          cases hno
    · have hdeshace := hwake _ _ rfl
      refine Or.inr ⟨hdeshace, hready ?_ ?_⟩
      · intro a u he
        obtain ⟨_, _, _, ⟨_, hno, _⟩ | hno⟩ := hdeshace
        · exact absurd (he.symm.trans hno) (by simp)
        · exact absurd (he.symm.trans hno) (by simp)
      · rintro a u ⟨he, _⟩
        obtain ⟨_, _, _, ⟨_, hno, _⟩ | hno⟩ := hdeshace
        · exact absurd (he.symm.trans hno) (by simp)
        · exact absurd (he.symm.trans hno) (by simp)
  · intro a u hpermite
    refine hok.enter hpermite ?_
    rintro path priority rfl
    exact ejecutando_of_paso h
  · rintro a (hno | hno)
    · cases hno
    · cases hno

/-- A guarded step keeps the live threads away from the identifiers that joins name. -/
theorem JoinsFirmes.destino_paso
    {j : TcbJoin} {t : Hilo}
    (hk : JoinsFirmes k)
    (hok : JoinsVivos k e)
    (h : paso cfg k e = some k')
    (hj : j ∈ k.listTcbJoins)
    (ht : t ∈ (vista k').threads)
    (hident : t.ident = j.blockingTcb.ident) :
    t = j.blockingTcb.hilo := by
  have hinv := (paso_mueve hk.coherente h).1.invariant
    (I := fun a => j.blockedTcb.hilo ∈ a.threads ∧
      ∀ t ∈ a.threads, t.ident = j.blockingTcb.ident → t = j.blockingTcb.hilo)
    ⟨Pool.mem_threads_of_blocked (hk.bloqueados j hj), hk.destinos j hj⟩ ?_
  · exact hinv.2 t ht hident
  rintro a b l ⟨hjoined, hothers⟩ hpermite hmove
  constructor
  · refine hmove.mem_threads hjoined ?_ ?_
    · -- the running thread is not one of those that joined
      rintro rfl
      obtain ⟨p, m, hfase, hp, _⟩ := hpermite
      have hnodup := (List.nodup_append.mp hk.solida.nodup).1
      have hrunning : (vista k).threads =
          p.hilo :: ((vista k).ready ++ (vista k).blocked) := by
        simp [Pool.threads, vista, hfase, Fase.corriendo]
      rw [hrunning, hp] at hnodup
      exact (List.nodup_cons.mp hnodup).1 (List.mem_append_right _ (hk.bloqueados j hj))
    · rintro rfl
      obtain ⟨rfl, hgemelo⟩ := hpermite
      exact hgemelo (gemeloEnReady_of_distinct hk.distintos h)
  · intro u hu hu'
    rcases hmove.mem_threads_of_mem hu with hu | rfl
    · exact hothers u hu hu'
    · rcases hpermite.2 with hfresh | ⟨⟨path, priority, pid, rfl, hpid, heq⟩, _⟩
      · refine absurd ?_ (hfresh _ hjoined)
        exact ((congrArg Prod.fst hu').trans (hk.mismoPid j hj)).symm
      · obtain ⟨p, hp⟩ := Option.isSome_iff_exists.mp (ejecutando_of_paso h)
        refine absurd (hu'.symm.trans heq) (hok.2.1 _ ?_ j hj)
        simp [tidNuevo, hp, hpid]

theorem JoinsFirmes.paso
    (hk : JoinsFirmes k)
    (hok : JoinsVivos k e)
    (h : paso cfg k e = some k') :
    JoinsFirmes k' := by
  obtain ⟨hmove, hcoh⟩ := paso_mueve hk.coherente h
  have hsolida := (solida_paso ⟨hk.coherente, hk.solida⟩ h).2
  have hdistintos := hok.1.paso hk.coherente hk.distintos h
  have heffect := efectoJoins_paso hk.coherente.viejos h
  refine ⟨hcoh, hsolida, hdistintos, ?_, ?_, ?_⟩
  · intro j hj
    rcases heffect.mem hj with ⟨hold, hno⟩ | ⟨tid, _, _, _, hblocked⟩
    · rcases hk.join_paso hok.1 h hold with ⟨_, hstays⟩ | ⟨hdeshace, _⟩
      · exact hstays
      · exact absurd hdeshace hno
    · simp [vista, hblocked]
  · intro j hj
    rcases heffect.mem hj with ⟨hold, _⟩ | ⟨tid, _, _, hfind, _⟩
    · exact hk.mismoPid j hold
    · exact (findTcbFromTid_some hfind).1
  · intro j hj t ht hident
    rcases heffect.mem hj with ⟨hold, _⟩ | ⟨tid, rfl, _, hfind, _⟩
    · exact hk.destino_paso hok h hold ht hident
    · -- the new target is still there, and identifiers are unique
      obtain ⟨_, _, hplace⟩ := findTcbFromTid_some hfind
      have hbefore : j.blockingTcb.hilo ∈ (vista k).threads := by
        rcases hplace with hplace | hplace
        · exact Pool.mem_threads_of_blocked (List.mem_map_of_mem hplace)
        · exact Pool.mem_threads_of_ready (List.mem_map_of_mem hplace)
      have hafter : j.blockingTcb.hilo ∈ (vista k').threads := by
        refine hmove.invariant (I := fun a => j.blockingTcb.hilo ∈ a.threads) hbefore ?_
        intro a b l ha hpermite hstep
        refine hstep.mem_threads ha ?_ ?_
        · rintro rfl
          obtain ⟨p, m, _, _, hm, hretira⟩ := hpermite
          cases hm
          exact hretira
        · rintro rfl
          cases hpermite.1
      exact hdistintos.eq_of_mem ht hafter hident

/-- Undoing the joins on a thread wakes only threads that joined it. -/
def DespiertaPor (pid tid : Nat) :
    Pool Hilo (Nat × Nat) Motivo → PoolLabel Hilo (Nat × Nat) Motivo → Prop
  | _, .wake _ r => r = .join pid tid
  | _, .block _ _ => False
  | _, _ => True

/-- Whoever `unlock_tcb_joins` takes out of BLOCKED joined the thread. -/
theorem left_blocked_unlockTcbJoins
    {pid tid : Nat} {h : Hilo}
    (hblocked : h ∈ k.listBlockedTcb.map Tcb.hilo)
    (hleft : h ∉ (unlockTcbJoins pid tid k).listBlockedTcb.map Tcb.hilo) :
    ∃ j ∈ k.listTcbJoins, j.blockedTcb.ident = h.ident ∧ j.blockingTcb.ident = (pid, tid) := by
  have hmueve : Mueve (DespiertaPor pid tid) k (unlockTcbJoins pid tid k) :=
    mueve_unlockTcbJoins rfl trivial
  rcases hmueve.left_blocked (t := h) (by simp [DespiertaPor]) hblocked with
    hstays | ⟨r, hwait, _, rfl⟩
  · exact absurd hstays hleft
  · exact mem_motivos_join.mp hwait

/-- Whoever leaves BLOCKED when another thread is unblocked has the identifiers of that
one. -/
theorem left_blocked_desbloquear
    {pid tid : Nat} {h : Hilo}
    (hblocked : h ∈ k.listBlockedTcb.map Tcb.hilo)
    (hleft : h ∉ (desbloquear k pid tid).listBlockedTcb.map Tcb.hilo) :
    h.ident = (pid, tid) := by
  rcases moveTcbBetweenLists_cases k.listBlockedTcb k.listReadyTcb pid tid .ready with
    ⟨l, t, m, hsplit, hpid, htid, _, _, hmove⟩ | ⟨_, hmove⟩
  · simp only [desbloquear, hmove] at hleft
    rw [hsplit] at hblocked
    simp only [List.map_append, List.map_cons, List.mem_append, List.mem_cons] at hblocked hleft
    rw [not_or] at hleft
    rcases hblocked with hblocked | rfl | hblocked
    · exact absurd hblocked hleft.1
    · exact Tcb.ident_eq.mpr ⟨hpid, htid⟩
    · exact absurd hblocked hleft.2
  · simp only [desbloquear, hmove] at hleft
    exact absurd hblocked hleft

/-- Whoever `release_all_mutexes` takes out of BLOCKED waited for a mutex that was owned
under the TID when it began. -/
theorem left_blocked_releaseAllMutexes
    {tcb : Tcb} {h : Hilo}
    (hrelease : releaseAllMutexes tcb k = some k')
    (hblocked : h ∈ k.listBlockedTcb.map Tcb.hilo)
    (hleft : h ∉ k'.listBlockedTcb.map Tcb.hilo) :
    ∃ m ∈ k.globalMutexes, m.assigned = true ∧ m.assignedTid = tcb.tid ∧
      ∃ t ∈ m.blockedTcbs, t.ident = h.ident := by
  -- a mutex that the TID owns later on has no waiter but those of one it owned
  have hinv := releaseAllMutexes_invariant
    (I := fun a => (∀ m ∈ a.globalMutexes, m.assigned = true → m.assignedTid = tcb.tid →
        ∃ d ∈ k.globalMutexes, d.assigned = true ∧ d.assignedTid = tcb.tid ∧
          m.blockedTcbs ⊆ d.blockedTcbs) ∧
      (h ∈ a.listBlockedTcb.map Tcb.hilo ∨
        ∃ m ∈ k.globalMutexes, m.assigned = true ∧ m.assignedTid = tcb.tid ∧
          ∃ t ∈ m.blockedTcbs, t.ident = h.ident)) hrelease
    ⟨fun m hm howned htid => ⟨m, hm, howned, htid, List.Subset.refl _⟩, Or.inl hblocked⟩ ?_
  · exact hinv.2.resolve_left hleft
  rintro a b x ⟨howners, hcase⟩ _ _ _ _ hunlock
  obtain ⟨m, hget, hcases⟩ := mutexUnlock_cases hunlock
  have hm : m ∈ a.globalMutexes := List.mem_of_find?_eq_some (getMutex_some hget).1
  rcases hcases with ⟨_, rfl⟩ | ⟨howned, htid, ⟨proximo, resto, hqueue, rfl⟩ | ⟨_, rfl⟩⟩
  · exact ⟨howners, hcase⟩
  · obtain ⟨d, hd, hdowned, hdtid, hsub⟩ := howners m hm howned htid
    constructor
    · intro y hy hyowned hytid
      rcases mem_modifyFirst hy with hy | ⟨m', hm', rfl⟩
      · exact howners y hy hyowned hytid
      · obtain rfl := Option.some.inj ((getMutex_some hget).1.symm.trans hm')
        exact ⟨d, hd, hdowned, hdtid, fun t ht => hsub (List.mem_of_mem_tail ht)⟩
    · rcases hcase with hstill | hwaited
      · by_cases hgone : h ∈
            (desbloquear a proximo.parentPid proximo.tid).listBlockedTcb.map Tcb.hilo
        · exact Or.inl hgone
        · refine Or.inr ⟨d, hd, hdowned, hdtid, proximo, hsub ?_, ?_⟩
          · rw [hqueue]
            exact List.mem_cons_self
          · exact (left_blocked_desbloquear hstill hgone).symm
      · exact Or.inr hwaited
  · refine ⟨?_, hcase⟩
    intro y hy hyowned hytid
    rcases mem_modifyFirst hy with hy | ⟨m', hm', rfl⟩
    · exact howners y hy hyowned hytid
    · cases hyowned

/-- Whoever leaves BLOCKED when the joins on a thread are undone had joined it or waited
for a mutex that its THREAD_EXIT hands on. -/
theorem left_blocked_deshace
    {u h : Hilo}
    (hdeshace : DeshaceJoins k e u.pid u.tid)
    (hstep : paso cfg k e = some k')
    (hblocked : h ∈ k.listBlockedTcb.map Tcb.hilo)
    (hleft : h ∉ k'.listBlockedTcb.map Tcb.hilo) :
    (∃ j ∈ k.listTcbJoins, j.blockedTcb.ident = h.ident ∧
      j.blockingTcb.ident = (u.pid, u.tid)) ∨
    EsperaMutex (mutexesCedidos k u e) h := by
  obtain ⟨p, hfase, hpid, ⟨x, rfl, htid⟩ | rfl⟩ := hdeshace
  · obtain ⟨proximo, pcb, hrun, _, hsyscall⟩ := atenderMensaje_cases hstep
    rw [hrun, Fase.ejecutando.injEq] at hfase
    subst hfase
    obtain ⟨k₁, hexit, hk'⟩ := Option.bind_eq_some_iff.mp hsyscall
    cases hk'
    obtain ⟨pcbs, k₂, hk₂, _, _, hrelease⟩ := threadExit_cases hexit
    have hjoins : k₂.listTcbJoins = k.listTcbJoins ∧ k₂.globalMutexes = k.globalMutexes ∧
        k₂.listBlockedTcb = k.listBlockedTcb := by
      rw [hk₂]
      exact ⟨rfl, rfl, rfl⟩
    by_cases hstill : h ∈
        (unlockTcbJoins proximo.parentPid proximo.tid k₂).listBlockedTcb.map Tcb.hilo
    · obtain ⟨m, hm, howned, hmtid, t, ht, hident⟩ :=
        left_blocked_releaseAllMutexes hrelease hstill hleft
      rw [unlockTcbJoins, unlockTcbJoinsFrom_mutexes, hjoins.2.1] at hm
      refine Or.inr ⟨m, List.mem_filter.mpr ⟨hm, ?_⟩, t, ht, hident⟩
      simp only [decide_eq_true_eq]
      exact ⟨howned, hmtid.trans htid, List.ne_nil_of_mem ht⟩
    · refine Or.inl ?_
      rw [← hjoins.2.2] at hblocked
      rw [← hjoins.1, ← hpid, ← htid]
      exact left_blocked_unlockTcbJoins hblocked hstill
  · obtain ⟨proximo, pcb, hrun, _, hsyscall⟩ := atenderMensaje_cases hstep
    rw [hrun, Fase.ejecutando.injEq] at hfase
    subst hfase
    obtain ⟨k₁, hcancel, hk'⟩ := Option.bind_eq_some_iff.mp hsyscall
    cases hk'
    rcases threadCancel_cases hcancel with ⟨tcb, hfind, rfl⟩ | ⟨_, _, rfl⟩
    · obtain ⟨htcb, htid, _⟩ := findTcbFromTid_some hfind
      rw [htcb, htid, hpid] at hleft
      exact Or.inl (left_blocked_unlockTcbJoins (k := interruptQuantum k) hblocked hleft)
    · exact absurd hblocked hleft

/-- The thread that ends by itself is live; its joins are undone, or it locks a mutex
that does not exist. -/
theorem terminaPorSi_cases
    {u : Hilo}
    (h : TerminaPorSi k u e) :
    u ∈ (vista k).threads ∧
      (DeshaceJoins k e u.pid u.tid ∨
      ∃ name x p, e = .respuesta (.mutexLock name x) ∧ getMutex k name = some none ∧
        k.fase = .ejecutando p ∧ p.hilo = u) := by
  have hrunning : ∀ p, p ∈ k.fase.ejecutando? → k.fase = .ejecutando p := by
    intro p hp
    unfold Fase.ejecutando? at hp
    split at hp
    · rename_i q hfase
      cases hp
      exact hfase
    · cases hp
  have hlive : ∀ p, p ∈ k.fase.ejecutando? → p.hilo ∈ (vista k).threads := by
    intro p hp
    simp [Pool.threads, vista, hrunning p hp, Fase.corriendo]
  unfold TerminaPorSi at h
  split at h
  · rename_i x
    obtain ⟨p, hp, rfl⟩ := h
    exact ⟨hlive p hp, Or.inl ⟨p, hrunning p hp, rfl, Or.inl ⟨x, rfl, rfl⟩⟩⟩
  · obtain ⟨hu, rfl, p, hp, hpid⟩ := h
    exact ⟨hu, Or.inl ⟨p, hrunning p hp, hpid, Or.inr rfl⟩⟩
  · rename_i name x
    obtain ⟨hnone, p, hp, rfl⟩ := h
    exact ⟨hlive p hp, Or.inr ⟨name, x, p, rfl, hnone, hrunning p hp, rfl⟩⟩
  · exact h.elim

/-- The target of a join ends by itself when the event undoes the joins on it. -/
theorem terminaPorSi_of_deshace
    {j : TcbJoin}
    (hk : JoinsFirmes k)
    (hj : j ∈ k.listTcbJoins)
    (hdeshace : DeshaceJoins k e j.blockingTcb.parentPid j.blockingTcb.tid)
    (h : paso cfg k e = some k') :
    TerminaPorSi k j.blockingTcb.hilo e := by
  obtain ⟨p, hfase, hpid, ⟨x, rfl, htid⟩ | rfl⟩ := hdeshace
  · refine ⟨p, by rw [hfase]; rfl, hk.destinos j hj p.hilo ?_ ?_⟩
    · simp [Pool.threads, vista, hfase, Fase.corriendo]
    · exact Tcb.ident_eq.mpr ⟨hpid, htid⟩
  · refine ⟨?_, rfl, p, by rw [hfase]; rfl, hpid⟩
    obtain ⟨proximo, pcb, hrun, _, hsyscall⟩ := atenderMensaje_cases h
    rw [hrun, Fase.ejecutando.injEq] at hfase
    subst hfase
    obtain ⟨k₁, hcancel, _⟩ := Option.bind_eq_some_iff.mp hsyscall
    rcases threadCancel_cases hcancel with ⟨tcb, hfind, _⟩ | ⟨_, hnil, _⟩
    · obtain ⟨htcb, htid, hplace⟩ := findTcbFromTid_some hfind
      have hlive : tcb.hilo ∈ (vista k).threads := by
        rcases hplace with hplace | hplace
        · exact Pool.mem_threads_of_blocked (List.mem_map_of_mem hplace)
        · exact Pool.mem_threads_of_ready (List.mem_map_of_mem hplace)
      rw [← hk.destinos j hj tcb.hilo hlive (Tcb.ident_eq.mpr ⟨htcb.trans hpid, htid⟩)]
      exact hlive
    · have hjoins : k.listTcbJoins = [] := hnil
      rw [hjoins] at hj
      cases hj

end Steps

section Runs

variable {cfg : Config μ} {es : List Evento} {a b : Globals μ} {e : Evento}

theorem joinsFirmes_of_alcanza
    (h : Alcanza cfg JoinsVivos es a) :
    JoinsFirmes a := by
  obtain ⟨memoria, path, size, hrun⟩ := h
  refine hrun.invariant (I := JoinsFirmes) ?_ ?_
  · have hsolida := solida_arranque cfg memoria path size
    have hnone : (arranque cfg memoria path size).listTcbJoins = [] := by
      rw [arranque, processCreate_admite]
      rfl
    refine ⟨hsolida.1, hsolida.2, distinct_arranque memoria path size, ?_, ?_, ?_⟩ <;>
      simp [hnone]
  · intro x y ev hx hok hstep
    exact hx.paso hok hstep

/-- Whoever joined a thread waits until the step in which that one ends by itself, and
that step makes ready all who joined it and removes their entries. Those are the only
ones that it wakes, except for who waits for a mutex that the end of the thread hands
on; where it hands on none, exactly those who joined it leave BLOCKED. -/
theorem join_wakes_at_termination
    (ha : Alcanza cfg JoinsVivos es a)
    (hok : JoinsVivos a e)
    (hstep : paso cfg a e = some b) :
    (∀ h u, EsperaJoin a h u →
      EsperaJoin b h u ∨ (TerminaPorSi a u e ∧ h ∈ b.listReadyTcb.map Tcb.hilo)) ∧
    ∀ u, TerminaPorSi a u e →
      (∀ h, EsperaJoin a h u → h ∈ b.listReadyTcb.map Tcb.hilo) ∧
      (∀ h ∈ a.listBlockedTcb.map Tcb.hilo, h ∉ b.listBlockedTcb.map Tcb.hilo →
        EsperaJoin a h u ∨ EsperaMutex (mutexesCedidos a u e) h) ∧
      (mutexesCedidos a u e = [] → ∀ h ∈ a.listBlockedTcb.map Tcb.hilo,
        h ∉ b.listBlockedTcb.map Tcb.hilo ↔ EsperaJoin a h u) ∧
      b.listTcbJoins = a.listTcbJoins.filter (fun j => j.blockingTcb.hilo ≠ u) := by
  have hk := joinsFirmes_of_alcanza ha
  have hk' := hk.paso hok hstep
  have heffect := efectoJoins_paso hk.coherente.viejos hstep
  constructor
  · rintro h u ⟨_, j, hj, rfl, rfl⟩
    rcases hk.join_paso hok.1 hstep hj with ⟨hj', hblocked⟩ | ⟨hdeshace, hready⟩
    · exact Or.inl ⟨hblocked, j, hj', rfl, rfl⟩
    · exact Or.inr ⟨terminaPorSi_of_deshace hk hj hdeshace hstep, hready⟩
  · intro u hu
    obtain ⟨hlive, hdeshace | ⟨name, x, p, rfl, hnone, hfase, rfl⟩⟩ := terminaPorSi_cases hu
    · have htarget : ∀ j ∈ a.listTcbJoins,
          (j.blockingTcb.tid = u.tid ∧ j.blockingTcb.parentPid = u.pid) ↔
            j.blockingTcb.hilo = u := by
        intro j hj
        constructor
        · rintro ⟨htid, hpid⟩
          exact (hk.destinos j hj u hlive (Tcb.ident_eq.mpr ⟨hpid, htid⟩).symm).symm
        · rintro rfl
          exact ⟨rfl, rfl⟩
      have hothers : ∀ h ∈ a.listBlockedTcb.map Tcb.hilo, h ∉ b.listBlockedTcb.map Tcb.hilo →
          EsperaJoin a h u ∨ EsperaMutex (mutexesCedidos a u e) h := by
        intro h hblocked hleft
        rcases left_blocked_deshace hdeshace hstep hblocked hleft with
          ⟨j, hj, hident, htids⟩ | hcedido
        · have heq : j.blockedTcb.hilo = h :=
            hk.distintos.eq_of_mem (Pool.mem_threads_of_blocked (hk.bloqueados j hj))
              (Pool.mem_threads_of_blocked hblocked) hident
          have htids := Tcb.ident_eq.mp htids
          exact Or.inl ⟨hblocked, j, hj, heq, (htarget j hj).mp ⟨htids.2, htids.1⟩⟩
        · exact Or.inr hcedido
      have hjoined : ∀ h, EsperaJoin a h u → h ∈ b.listReadyTcb.map Tcb.hilo := by
        rintro h ⟨_, j, hj, rfl, rfl⟩
        rcases hk.join_paso hok.1 hstep hj with ⟨hj', _⟩ | ⟨_, hready⟩
        · rcases heffect.mem hj' with ⟨_, hno⟩ | ⟨_, he, _⟩
          · exact absurd hdeshace hno
          · obtain ⟨_, _, _, ⟨_, hno, _⟩ | hno⟩ := hdeshace <;>
              exact absurd (he.symm.trans hno) (by simp)
        · exact hready
      refine ⟨hjoined, hothers, ?_, ?_⟩
      · intro hnone h hblocked
        refine ⟨fun hleft => ?_, fun hjoin => ?_⟩
        · rcases hothers h hblocked hleft with hjoin | ⟨m, hm, _⟩
          · exact hjoin
          · rw [hnone] at hm
            cases hm
        · exact hk'.solida.not_blocked_of_ready (hjoined h hjoin)
      · cases heffect with
        | igual hno hjoins =>
            rw [hjoins, hno _ _ hdeshace]
            rfl
        | join _ _ _ he _ _ _ _ =>
            obtain ⟨_, _, _, ⟨_, hno, _⟩ | hno⟩ := hdeshace <;>
              exact absurd (he.symm.trans hno) (by simp)
        | deshace pid tid hdeshace' hjoins =>
            obtain ⟨rfl, rfl⟩ := hdeshace'.unique hdeshace
            rw [hjoins]
            refine List.filter_congr (fun j hj => ?_)
            simp [htarget j hj]
    · -- nobody joined a thread that locks a mutex that does not exist
      have hcolgados : ∀ j ∈ a.listTcbJoins, j.blockingTcb.ident ≠ p.ident := by
        have hnil := hok.2.2
        simp only [joinsColgados, hfase, Fase.ejecutando?, hnone] at hnil
        simpa using List.filter_eq_nil_iff.mp hnil
      have hsame : b.listBlockedTcb = a.listBlockedTcb ∧ b.listTcbJoins = a.listTcbJoins := by
        obtain ⟨proximo, pcb, _, _, hsyscall⟩ := atenderMensaje_cases hstep
        obtain ⟨⟨k₁, reservado⟩, hlock, hk'⟩ := Option.bind_eq_some_iff.mp hsyscall
        cases hk'
        rcases mutexLock_cases hlock with ⟨_, rfl, salida, rfl⟩ | ⟨m, hget, _⟩
        · exact ⟨rfl, rfl⟩
        · have hget : getMutex a name = some (some m) := hget
          rw [hnone] at hget
          cases hget
      have hnobody : ∀ h, ¬ EsperaJoin a h p.hilo := by
        rintro h ⟨_, j, hj, _, htarget⟩
        exact hcolgados j hj (congrArg Hilo.ident htarget)
      refine ⟨fun h hjoin => absurd hjoin (hnobody h), ?_, ?_, ?_⟩
      · intro h hblocked hleft
        rw [hsame.1] at hleft
        exact absurd hblocked hleft
      · intro _ h hblocked
        rw [hsame.1]
        exact ⟨fun hleft => absurd hblocked hleft, fun hjoin => absurd hjoin (hnobody h)⟩
      · rw [hsame.2]
        refine (List.filter_eq_self.mpr (fun j hj => ?_)).symm
        simp only [decide_eq_true_eq]
        exact fun htarget => hcolgados j hj (congrArg Hilo.ident htarget)

/-- The first thread creates another one and joins it. -/
def joinDeOtro : List Evento :=
  [.despachar, .respuesta (.threadCreate ['b'] 0), .despachar, .respuesta (.threadJoin 1),
    .despachar]

/-- The one that it joined ends. -/
theorem join_wakes_at_termination_threadExit :
    ∃ a b, execute (paso (siempreOk .fifo)) (arranque (siempreOk .fifo) () ['a'] 16)
        joinDeOtro = some a ∧
      paso (siempreOk .fifo) a (.respuesta (.threadExit 1)) = some b ∧
      EsperaJoin a { dir := 0, pid := 0, tid := 0 } { dir := 1, pid := 0, tid := 1 } ∧
      { dir := 0, pid := 0, tid := 0 } ∈ b.listReadyTcb.map Tcb.hilo := by
  refine ⟨_, _, (Option.some_get (by decide)).symm, (Option.some_get (by decide)).symm,
    ⟨by decide, by decide⟩, ?_⟩
  refine ((join_wakes_at_termination
    (alcanza_of_isSome () ['a'] 16 (by decide) (by decide)) (by decide)
    (Option.some_get (by decide)).symm).2 { dir := 1, pid := 0, tid := 1 } ?_).1
    { dir := 0, pid := 0, tid := 0 } ⟨by decide, by decide⟩
  exact ⟨_, rfl, rfl⟩

/-- The one that it joined locks a mutex that does not exist: its end wakes nobody. -/
theorem join_sleeps_after_missing_mutex :
    ∃ a b, Alcanza (siempreOk .fifo) anyLabel joinDeOtro a ∧
      paso (siempreOk .fifo) a (.respuesta (.mutexLock ['m'] 0)) = some b ∧
      EsperaJoin a { dir := 0, pid := 0, tid := 0 } { dir := 1, pid := 0, tid := 1 } ∧
      TerminaPorSi a { dir := 1, pid := 0, tid := 1 } (.respuesta (.mutexLock ['m'] 0)) ∧
      { dir := 0, pid := 0, tid := 0 } ∉ b.listReadyTcb.map Tcb.hilo ∧ b.listTcbJoins ≠ [] :=
  ⟨_, _, alcanza_of_isSome () ['a'] 16 (by decide) (by decide),
    (Option.some_get (by decide)).symm, ⟨by decide, by decide⟩, ⟨by decide, _, rfl, rfl⟩,
    by decide, by decide⟩

end Runs

end Kernel
end SinIdeas
