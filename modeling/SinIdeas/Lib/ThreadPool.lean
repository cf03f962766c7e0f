import Mathlib.Data.Multiset.Count
import Mathlib.Data.Multiset.MapFold
import Mathlib.Data.Set.Basic
import Mathlib.Data.List.Nodup
import SinIdeas.Lib.Runs

/-!
# A pool of threads under a scheduler with a counting semaphore

A pool keeps the threads that were created but not admitted, the running one,
those ready and those blocked, together with the reasons for which blocked
threads wait and the permits of the semaphore that counts the ready list.
Threads are told apart by an identifier that need not be unique.

`Move` lists what can happen to a pool, also what should not: a ready thread
that is lost, a permit that is spent without taking a thread, a wake-up that
finds nobody. The results say which of the moves each property survives, so a
scheduler whose steps are sequences of moves inherits the property from the
moves it avoids.
-/

namespace SinIdeas
namespace Lib

universe u v w

/-- Threads of type `τ`, identified by `ι`, that wait for reasons in `ρ`. -/
structure Pool (τ : Type u) (ι : Type v) (ρ : Type w) where
  fresh : List τ
  running : Option τ
  ready : List τ
  blocked : List τ
  waits : Multiset (ι × ρ)
  permits : Nat
  issued : Set τ

/-- The moves of a pool. -/
inductive PoolLabel (τ : Type u) (ι : Type v) (ρ : Type w) where
  | create (t : τ)
  | enter (t : τ)
  | pick (t : τ)
  | preempt (t : τ)
  | block (t : τ) (r : ρ)
  | wake (t : τ) (r : ρ)
  | post (i : ι) (r : ρ)
  | forget (i : ι) (r : ρ)
  | drop (t : τ)
  | lose (t : τ)
  | spend

variable {τ : Type u} {ι : Type v} {ρ : Type w}

namespace Pool

/-- The threads that take part in scheduling. -/
def threads (s : Pool τ ι ρ) : List τ :=
  s.running.toList ++ (s.ready ++ s.blocked)

/-- How many of the reasons are for the identifier `i`. -/
def waitsOf [DecidableEq ι] (s : Pool τ ι ρ) (i : ι) : Nat :=
  (s.waits.map Prod.fst).count i

/-- One move of the pool. -/
inductive Move (ident : τ → ι) : Pool τ ι ρ → PoolLabel τ ι ρ → Pool τ ι ρ → Prop
  | create {s : Pool τ ι ρ} {t : τ} {issued : Set τ} :
      t ∉ s.issued →
      s.issued ⊆ issued →
      t ∈ issued →
      Move ident s (.create t) { s with fresh := s.fresh ++ [t], issued := issued }
  | enter {s : Pool τ ι ρ} {t : τ} {l m : List τ} :
      s.fresh = l ++ t :: m →
      Move ident s (.enter t)
        { s with fresh := l ++ m, ready := s.ready ++ [t], permits := s.permits + 1 }
  | pick {s : Pool τ ι ρ} {t : τ} {l m : List τ} {n : Nat} :
      s.running = none →
      s.ready = l ++ t :: m →
      s.permits = n + 1 →
      Move ident s (.pick t) { s with running := some t, ready := l ++ m, permits := n }
  | preempt {s : Pool τ ι ρ} {t : τ} :
      s.running = some t →
      Move ident s (.preempt t)
        { s with running := none, ready := s.ready ++ [t], permits := s.permits + 1 }
  | block {s : Pool τ ι ρ} {t : τ} {r : ρ} :
      s.running = some t →
      Move ident s (.block t r)
        { s with running := none, blocked := s.blocked ++ [t],
                 waits := (ident t, r) ::ₘ s.waits }
  | wake {s : Pool τ ι ρ} {t : τ} {r : ρ} {l m : List τ} {w : Multiset (ι × ρ)} :
      s.blocked = l ++ t :: m →
      s.waits = (ident t, r) ::ₘ w →
      Move ident s (.wake t r)
        { s with blocked := l ++ m, ready := s.ready ++ [t], waits := w,
                 permits := s.permits + 1 }
  | post {s : Pool τ ι ρ} {i : ι} {r : ρ} {w : Multiset (ι × ρ)} :
      (∀ t ∈ s.blocked, ident t ≠ i) →
      s.waits = (i, r) ::ₘ w →
      Move ident s (.post i r) { s with waits := w, permits := s.permits + 1 }
  | forget {s : Pool τ ι ρ} {i : ι} {r : ρ} {w : Multiset (ι × ρ)} :
      s.waits = (i, r) ::ₘ w →
      Move ident s (.forget i r) { s with waits := w }
  | drop {s : Pool τ ι ρ} {t : τ} :
      s.running = some t →
      Move ident s (.drop t) { s with running := none }
  | lose {s : Pool τ ι ρ} {t : τ} {l m : List τ} :
      s.ready = l ++ t :: m →
      Move ident s (.lose t) { s with ready := l ++ m }
  | spend {s : Pool τ ι ρ} {n : Nat} :
      s.permits = n + 1 →
      Move ident s .spend { s with permits := n }

/-- A sequence of moves that meet `ok` in the pool in which they are made. -/
abbrev Moves
    (ident : τ → ι)
    (ok : Pool τ ι ρ → PoolLabel τ ι ρ → Prop)
    (s : Pool τ ι ρ) (ls : List (PoolLabel τ ι ρ)) (s' : Pool τ ι ρ) : Prop :=
  Run (Move ident) ok s ls s'

/-- No thread is in two places, and every reason for an identifier has a blocked
thread with that identifier. -/
structure Sound [DecidableEq ι] (ident : τ → ι) (s : Pool τ ι ρ) : Prop where
  nodup : (s.threads ++ s.fresh).Nodup
  known : ∀ t ∈ s.threads ++ s.fresh, t ∈ s.issued
  waits_le : ∀ i, s.waitsOf i ≤ s.blocked.countP (fun t => ident t = i)

/-- The semaphore counts the ready list. -/
def Balanced (s : Pool τ ι ρ) : Prop := s.permits = s.ready.length

/-- Identifiers are unique among the threads that take part in scheduling. -/
def Distinct (ident : τ → ι) (s : Pool τ ι ρ) : Prop := (s.threads.map ident).Nodup

section Rules

variable {ident : τ → ι} {s s' : Pool τ ι ρ} {l : PoolLabel τ ι ρ}

/-- What happens to the threads: they are permuted, one comes in, or one goes. -/
theorem Move.threads_cases
    (h : Move ident s l s') :
    (s'.threads.Perm s.threads ∧ s'.fresh.Perm s.fresh ∧ s'.issued = s.issued) ∨
    (∃ t, l = .create t ∧ t ∉ s.issued ∧ s.issued ⊆ s'.issued ∧ t ∈ s'.issued ∧
      s'.threads = s.threads ∧ s'.fresh = s.fresh ++ [t]) ∨
    (∃ t, l = .enter t ∧ s.fresh.Perm (t :: s'.fresh) ∧ s'.threads.Perm (t :: s.threads) ∧
      s'.issued = s.issued) ∨
    (∃ t, (l = .drop t ∨ l = .lose t) ∧ s.threads.Perm (t :: s'.threads) ∧
      s'.fresh = s.fresh ∧ s'.issued = s.issued) := by
  cases h with
  | create hnew hsub hmem =>
      exact Or.inr (Or.inl ⟨_, rfl, hnew, hsub, hmem, rfl, rfl⟩)
  | enter hfresh =>
      refine Or.inr (Or.inr (Or.inl ⟨_, rfl, ?_, ?_, rfl⟩))
      · rw [hfresh]
        exact List.perm_middle
      · simp only [threads, List.append_assoc, List.singleton_append]
        rw [← List.append_assoc, ← List.append_assoc]
        exact List.perm_middle
  | pick hrun hready hn =>
      refine Or.inl ⟨?_, List.Perm.refl _, rfl⟩
      simp only [threads, hrun, hready, Option.toList, List.nil_append, List.append_assoc,
        List.cons_append]
      exact List.perm_middle.symm
  | preempt hrun =>
      refine Or.inl ⟨?_, List.Perm.refl _, rfl⟩
      simp only [threads, hrun, Option.toList, List.nil_append, List.append_assoc,
        List.singleton_append]
      exact List.perm_middle
  | block hrun =>
      refine Or.inl ⟨?_, List.Perm.refl _, rfl⟩
      simp only [threads, hrun, Option.toList, List.nil_append, List.singleton_append]
      rw [← List.append_assoc]
      exact List.perm_append_singleton _ _
  | wake hblocked hwaits =>
      refine Or.inl ⟨?_, List.Perm.refl _, rfl⟩
      simp only [threads, hblocked, List.append_assoc, List.singleton_append]
      refine List.Perm.append_left _ (List.Perm.append_left _ ?_)
      exact List.perm_middle.symm
  | post hnone hwaits =>
      exact Or.inl ⟨List.Perm.refl _, List.Perm.refl _, rfl⟩
  | forget hwaits =>
      exact Or.inl ⟨List.Perm.refl _, List.Perm.refl _, rfl⟩
  | drop hrun =>
      refine Or.inr (Or.inr (Or.inr ⟨_, Or.inl rfl, ?_, rfl, rfl⟩))
      simp only [threads, hrun, Option.toList, List.nil_append, List.singleton_append]
      exact List.Perm.refl _
  | lose hready =>
      refine Or.inr (Or.inr (Or.inr ⟨_, Or.inr rfl, ?_, rfl, rfl⟩))
      simp only [threads, hready, List.append_assoc, List.cons_append]
      rw [← List.append_assoc, ← List.append_assoc s.running.toList]
      exact List.perm_middle
  | spend hn =>
      exact Or.inl ⟨List.Perm.refl _, List.Perm.refl _, rfl⟩

/-- A thread stays in the pool unless it is dropped or lost. -/
theorem Move.mem_threads
    {t : τ}
    (h : Move ident s l s')
    (ht : t ∈ s.threads)
    (hdrop : l ≠ .drop t)
    (hlose : l ≠ .lose t) :
    t ∈ s'.threads := by
  rcases h.threads_cases with ⟨hperm, _⟩ | ⟨_, _, _, _, _, heq, _⟩ | ⟨_, _, _, hperm, _⟩ |
      ⟨t', hl, hperm, _⟩
  · exact hperm.mem_iff.mpr ht
  · rw [heq]
    exact ht
  · exact hperm.mem_iff.mpr (List.mem_cons_of_mem _ ht)
  · rcases List.mem_cons.mp (hperm.mem_iff.mp ht) with rfl | ht'
    · rcases hl with hl | hl
      · exact absurd hl hdrop
      · exact absurd hl hlose
    · exact ht'

/-- A thread that was made and is out of the pool stays out of it. -/
theorem Move.stays_out
    {t : τ}
    (h : Move ident s l s')
    (hissued : t ∈ s.issued)
    (hout : t ∉ s.threads ++ s.fresh) :
    t ∈ s'.issued ∧ t ∉ s'.threads ++ s'.fresh := by
  rw [List.mem_append, not_or] at hout ⊢
  obtain ⟨hthreads, hfresh⟩ := hout
  rcases h.threads_cases with ⟨ht, hf, hi⟩ | ⟨u, _, hnew, hsub, _, ht, hf⟩ | ⟨u, _, hf, ht, hi⟩ |
      ⟨u, _, ht, hf, hi⟩
  · exact ⟨hi ▸ hissued, fun hmem => hthreads (ht.mem_iff.mp hmem),
      fun hmem => hfresh (hf.mem_iff.mp hmem)⟩
  · refine ⟨hsub hissued, ht ▸ hthreads, ?_⟩
    rw [hf, List.mem_append, List.mem_singleton]
    rintro (hmem | rfl)
    · exact hfresh hmem
    · exact hnew hissued
  · refine ⟨hi ▸ hissued, ?_, fun hmem => hfresh (hf.mem_iff.mpr (List.mem_cons_of_mem _ hmem))⟩
    intro hmem
    rcases List.mem_cons.mp (ht.mem_iff.mp hmem) with rfl | hmem
    · exact hfresh (hf.mem_iff.mpr List.mem_cons_self)
    · exact hthreads hmem
  · exact ⟨hi ▸ hissued, fun hmem => hthreads (ht.mem_iff.mpr (List.mem_cons_of_mem _ hmem)),
      hf ▸ hfresh⟩

/-- A thread of the pool was there before or is admitted. -/
theorem Move.mem_threads_of_mem
    {t : τ}
    (h : Move ident s l s')
    (ht : t ∈ s'.threads) :
    t ∈ s.threads ∨ l = .enter t := by
  rcases h.threads_cases with ⟨hperm, _⟩ | ⟨_, _, _, _, _, heq, _⟩ | ⟨t', hl, _, hperm, _⟩ |
      ⟨_, _, hperm, _⟩
  · exact Or.inl (hperm.mem_iff.mp ht)
  · rw [heq] at ht
    exact Or.inl ht
  · rcases List.mem_cons.mp (hperm.mem_iff.mp ht) with rfl | ht'
    · exact Or.inr hl
    · exact Or.inl ht'
  · exact Or.inl (hperm.mem_iff.mpr (List.mem_cons_of_mem _ ht))

/-- A blocked thread stays blocked unless it is woken. -/
theorem Move.mem_blocked
    {t : τ}
    (h : Move ident s l s')
    (ht : t ∈ s.blocked) :
    t ∈ s'.blocked ∨ ∃ r, l = .wake t r := by
  cases h with
  | block hrun =>
      exact Or.inl (List.mem_append_left _ ht)
  | @wake t' r a b w hblocked hwaits =>
      rw [hblocked] at ht
      rcases List.mem_append.mp ht with ht | ht
      · exact Or.inl (List.mem_append_left _ ht)
      · rcases List.mem_cons.mp ht with rfl | ht
        · exact Or.inr ⟨r, rfl⟩
        · exact Or.inl (List.mem_append_right _ ht)
  | _ => exact Or.inl ht

/-- A reason stays until a wake-up for it, or until it is forgotten. -/
theorem Move.mem_waits
    {i : ι} {r : ρ}
    (h : Move ident s l s')
    (hr : (i, r) ∈ s.waits) :
    (i, r) ∈ s'.waits ∨ (∃ t, ident t = i ∧ l = .wake t r) ∨ l = .post i r ∨
      l = .forget i r := by
  cases h with
  | block hrun =>
      exact Or.inl (Multiset.mem_cons_of_mem hr)
  | @wake t r' a b w hblocked hwaits =>
      rw [hwaits] at hr
      rcases Multiset.mem_cons.mp hr with heq | hr
      · cases heq
        exact Or.inr (Or.inl ⟨t, rfl, rfl⟩)
      · exact Or.inl hr
  | post hnone hwaits =>
      rw [hwaits] at hr
      rcases Multiset.mem_cons.mp hr with heq | hr
      · cases heq
        exact Or.inr (Or.inr (Or.inl rfl))
      · exact Or.inl hr
  | forget hwaits =>
      rw [hwaits] at hr
      rcases Multiset.mem_cons.mp hr with heq | hr
      · cases heq
        exact Or.inr (Or.inr (Or.inr rfl))
      · exact Or.inl hr
  | _ => exact Or.inl hr

/-- A ready thread stays ready unless it is picked or lost. -/
theorem Move.mem_ready
    {t : τ}
    (h : Move ident s l s')
    (ht : t ∈ s.ready) :
    t ∈ s'.ready ∨ l = .pick t ∨ l = .lose t := by
  cases h with
  | @pick u a b n hrun hready hn =>
      rw [hready] at ht
      rcases List.mem_append.mp ht with ht | ht
      · exact Or.inl (List.mem_append_left _ ht)
      · rcases List.mem_cons.mp ht with rfl | ht
        · exact Or.inr (Or.inl rfl)
        · exact Or.inl (List.mem_append_right _ ht)
  | @lose u a b hready =>
      rw [hready] at ht
      rcases List.mem_append.mp ht with ht | ht
      · exact Or.inl (List.mem_append_left _ ht)
      · rcases List.mem_cons.mp ht with rfl | ht
        · exact Or.inr (Or.inr rfl)
        · exact Or.inl (List.mem_append_right _ ht)
  | enter hfresh =>
      exact Or.inl (List.mem_append_left _ ht)
  | preempt hrun =>
      exact Or.inl (List.mem_append_left _ ht)
  | wake hblocked hwaits =>
      exact Or.inl (List.mem_append_left _ ht)
  | _ =>
      exact Or.inl ht

/-- A wake-up takes a blocked thread that has the reason and makes it ready. -/
theorem Move.wake_spec
    {t : τ} {r : ρ}
    (h : Move ident s (.wake t r) s') :
    t ∈ s.blocked ∧ (ident t, r) ∈ s.waits ∧ t ∈ s'.ready := by
  cases h with
  | wake hblocked hwaits =>
      refine ⟨?_, ?_, ?_⟩
      · simp [hblocked]
      · simp [hwaits]
      · simp

theorem mem_threads_of_blocked
    {t : τ}
    (ht : t ∈ s.blocked) :
    t ∈ s.threads :=
  List.mem_append_right _ (List.mem_append_right _ ht)

theorem mem_threads_of_ready
    {t : τ}
    (ht : t ∈ s.ready) :
    t ∈ s.threads :=
  List.mem_append_right _ (List.mem_append_left _ ht)

/-- Threads with one identifier are one thread. -/
theorem Distinct.eq_of_mem
    {t u : τ}
    (hd : Distinct ident s)
    (ht : t ∈ s.threads)
    (hu : u ∈ s.threads)
    (h : ident t = ident u) :
    t = u :=
  List.inj_on_of_nodup_map hd ht hu h

/-- Identifiers stay unique if the admitted thread brings a new one. -/
theorem Distinct.move
    (hd : Distinct ident s)
    (h : Move ident s l s')
    (henter : ∀ t, l = .enter t → ident t ∉ s.threads.map ident) :
    Distinct ident s' := by
  unfold Distinct at *
  rcases h.threads_cases with ⟨hperm, _⟩ | ⟨_, _, _, _, _, heq, _⟩ | ⟨t, hl, _, hperm, _⟩ |
      ⟨_, _, hperm, _⟩
  · exact (hperm.map ident).nodup_iff.mpr hd
  · rw [heq]
    exact hd
  · refine (hperm.map ident).nodup_iff.mpr ?_
    rw [List.map_cons]
    exact List.nodup_cons.mpr ⟨henter t hl, hd⟩
  · have hcons := (hperm.map ident).nodup_iff.mp hd
    rw [List.map_cons] at hcons
    exact (List.nodup_cons.mp hcons).2

variable [DecidableEq ι]

/-- A ready thread is not blocked. -/
theorem Sound.not_blocked_of_ready
    {t : τ}
    (hs : Sound ident s)
    (ht : t ∈ s.ready) :
    t ∉ s.blocked := by
  have hplaces := (List.nodup_append.mp (List.nodup_append.mp hs.nodup).1).2.1
  exact fun hblocked => (List.nodup_append.mp hplaces).2.2 t ht t hblocked rfl

/-- In a sound pool a wake-up finds its thread. -/
theorem Sound.not_post
    {i : ι} {r : ρ} {w : Multiset (ι × ρ)}
    (hs : Sound ident s)
    (hnone : ∀ t ∈ s.blocked, ident t ≠ i)
    (hwaits : s.waits = (i, r) ::ₘ w) :
    False := by
  have hle := hs.waits_le i
  have hzero : s.blocked.countP (fun t => ident t = i) = 0 := by
    rw [List.countP_eq_zero]
    intro t ht
    simpa using hnone t ht
  rw [hzero, waitsOf, hwaits, Multiset.map_cons, Multiset.count_cons_self] at hle
  omega

theorem Sound.move
    (hs : Sound ident s)
    (h : Move ident s l s') :
    Sound ident s' := by
  have hplaces : (s'.threads ++ s'.fresh).Nodup ∧
      ∀ t ∈ s'.threads ++ s'.fresh, t ∈ s'.issued := by
    rcases h.threads_cases with ⟨ht, hf, hi⟩ | ⟨t, _, hnew, hsub, hmem, heq, hf⟩ |
        ⟨t, _, hf, ht, hi⟩ | ⟨t, _, ht, hf, hi⟩
    · have hperm := ht.append hf
      exact ⟨hperm.nodup_iff.mpr hs.nodup,
        fun u hu => hi ▸ hs.known u (hperm.mem_iff.mp hu)⟩
    · rw [heq, hf, ← List.append_assoc]
      refine ⟨?_, fun u hu => ?_⟩
      · refine List.nodup_append.mpr ⟨hs.nodup, by simp, ?_⟩
        rintro a ha b hb rfl
        rw [List.mem_singleton.mp hb] at ha
        exact hnew (hs.known t ha)
      · rcases List.mem_append.mp hu with hu | hu
        · exact hsub (hs.known u hu)
        · rw [List.mem_singleton.mp hu]
          exact hmem
    · have hperm : (s'.threads ++ s'.fresh).Perm (s.threads ++ s.fresh) :=
        (ht.append_right _).trans (List.perm_middle.symm.trans (hf.symm.append_left _))
      exact ⟨hperm.nodup_iff.mpr hs.nodup,
        fun u hu => hi ▸ hs.known u (hperm.mem_iff.mp hu)⟩
    · have hperm : (s.threads ++ s.fresh).Perm (t :: (s'.threads ++ s'.fresh)) := by
        rw [hf]
        exact ht.append_right _
      exact ⟨(List.nodup_cons.mp (hperm.nodup_iff.mp hs.nodup)).2,
        fun u hu => hi ▸ hs.known u (hperm.mem_iff.mpr (List.mem_cons_of_mem _ hu))⟩
  refine ⟨hplaces.1, hplaces.2, fun i => ?_⟩
  have hle := hs.waits_le i
  unfold waitsOf at hle ⊢
  cases h with
  | @block t r hrun =>
      simp only [Multiset.map_cons, Multiset.count_cons, List.countP_append, List.countP_cons,
        List.countP_nil, eq_comm (a := i)]
      by_cases hi : ident t = i
      · simp only [hi, if_true, decide_true]
        omega
      · simp only [hi, if_false, decide_false]
        simpa using hle
  | @wake t r a b w hblocked hwaits =>
      rw [hblocked, hwaits] at hle
      simp only [Multiset.map_cons, Multiset.count_cons, List.countP_append, List.countP_cons,
        eq_comm (a := i)] at hle ⊢
      by_cases hi : ident t = i
      · simp only [hi, if_true, decide_true] at hle
        omega
      · simp only [hi, if_false, decide_false] at hle
        simpa using hle
  | post hnone hwaits =>
      exact (hs.not_post hnone hwaits).elim
  | @forget j r w hwaits =>
      rw [hwaits, Multiset.map_cons] at hle
      exact (Multiset.count_le_count_cons i j _).trans hle
  | _ => exact hle

/-- The semaphore keeps counting the ready list if no thread is lost and no
permit is spent. -/
theorem Balanced.move
    (hb : Balanced s)
    (hs : Sound ident s)
    (h : Move ident s l s')
    (hlose : ∀ t, l ≠ .lose t)
    (hspend : l ≠ .spend) :
    Balanced s' := by
  unfold Balanced at *
  cases h with
  | enter hfresh =>
      simp [hb]
  | pick hrun hready hn =>
      rw [hready, hn] at hb
      simp only [List.length_append, List.length_cons] at hb ⊢
      omega
  | preempt hrun =>
      simp [hb]
  | wake hblocked hwaits =>
      simp [hb]
  | post hnone hwaits =>
      exact (hs.not_post hnone hwaits).elim
  | @lose t _ _ hready =>
      exact absurd rfl (hlose t)
  | spend hn =>
      exact absurd rfl hspend
  | _ => exact hb

/-- A reason for the only thread with its identifier is the only one. -/
theorem Sound.reason_unique
    {t : τ} {r r' : ρ}
    (hs : Sound ident s)
    (hd : Distinct ident s)
    (hr : (ident t, r) ∈ s.waits)
    (hr' : (ident t, r') ∈ s.waits) :
    r = r' := by
  by_contra hne
  obtain ⟨w, hw⟩ := Multiset.exists_cons_of_mem hr
  have hr₂ : (ident t, r') ∈ w := by
    rw [hw] at hr'
    rcases Multiset.mem_cons.mp hr' with heq | hmem
    · cases heq
      exact absurd rfl hne
    · exact hmem
  obtain ⟨w', hw'⟩ := Multiset.exists_cons_of_mem hr₂
  have htwo : 2 ≤ s.waitsOf (ident t) := by
    rw [waitsOf, hw, hw']
    simp
  have hone : s.blocked.countP (fun u => ident u = ident t) ≤ 1 := by
    have hsub : (s.blocked.map ident).Nodup := by
      refine List.Nodup.sublist ?_ hd
      refine List.Sublist.map ident ?_
      exact (List.sublist_append_right _ _).trans (List.sublist_append_right _ _)
    have hcount := List.nodup_iff_count_le_one.mp hsub (ident t)
    rw [List.count_eq_countP, List.countP_map] at hcount
    refine le_trans (le_of_eq ?_) hcount
    congr 1
  have hle := hs.waits_le (ident t)
  omega

end Rules

/-- `s'` comes from `s` by moves that meet `ok`. -/
def Reaches
    (ident : τ → ι)
    (ok : Pool τ ι ρ → PoolLabel τ ι ρ → Prop)
    (s s' : Pool τ ι ρ) : Prop :=
  ∃ ls, Moves ident ok s ls s'

section Reach

variable {ident : τ → ι} {ok ok' : Pool τ ι ρ → PoolLabel τ ι ρ → Prop}
  {s s' s'' : Pool τ ι ρ}

theorem Reaches.refl : Reaches ident ok s s := ⟨[], Run.nil⟩

theorem Reaches.of_eq (h : s' = s) : Reaches ident ok s s' := h ▸ Reaches.refl

theorem Reaches.single
    {l : PoolLabel τ ι ρ}
    (hok : ok s l)
    (h : Move ident s l s') :
    Reaches ident ok s s' :=
  ⟨[l], Run.cons hok h Run.nil⟩

theorem Reaches.trans
    (h₁ : Reaches ident ok s s')
    (h₂ : Reaches ident ok s' s'') :
    Reaches ident ok s s'' := by
  obtain ⟨ls, hls⟩ := h₁
  obtain ⟨ms, hms⟩ := h₂
  exact ⟨ls ++ ms, hls.append hms⟩

theorem Reaches.mono
    (h : Reaches ident ok s s')
    (hweak : ∀ {a l}, ok a l → ok' a l) :
    Reaches ident ok' s s' := by
  obtain ⟨ls, hls⟩ := h
  exact ⟨ls, hls.mono hweak⟩

/-- What every permitted move keeps is kept. -/
theorem Reaches.invariant
    {I : Pool τ ι ρ → Prop}
    (h : Reaches ident ok s s')
    (hstart : I s)
    (hstep : ∀ {a b l}, I a → ok a l → Move ident a l b → I b) :
    I s' := by
  obtain ⟨ls, hls⟩ := h
  exact hls.invariant hstart hstep

/-- A thread of the pool or of the fresh ones was there before or is created. -/
theorem Reaches.mem_all
    {t : τ}
    (h : Reaches ident ok s s')
    (ht : t ∈ s'.threads ++ s'.fresh) :
    t ∈ s.threads ++ s.fresh ∨ ∃ a, ok a (.create t) := by
  refine h.invariant
    (I := fun a => t ∈ a.threads ++ a.fresh → t ∈ s.threads ++ s.fresh ∨ ∃ a, ok a (.create t))
    Or.inl ?_ ht
  intro a b l ih hok hmove hb
  rcases hmove.threads_cases with ⟨hp, hf, _⟩ | ⟨u, rfl, _, _, _, heq, hf⟩ | ⟨u, _, hf, hp, _⟩ |
      ⟨u, _, hp, hf, _⟩
  · exact ih ((hp.append hf).mem_iff.mp hb)
  · rw [heq, hf, ← List.append_assoc] at hb
    rcases List.mem_append.mp hb with hb | hb
    · exact ih hb
    · rw [List.mem_singleton.mp hb]
      exact Or.inr ⟨a, hok⟩
  · refine ih ((List.Perm.append_left _ hf).mem_iff.mpr ?_)
    exact List.perm_middle.mem_iff.mpr ((hp.append_right _).mem_iff.mp hb)
  · refine ih ?_
    rw [← hf]
    exact (hp.append_right _).mem_iff.mpr (List.mem_cons_of_mem _ hb)

/-- Where no thread is admitted none is gained. -/
theorem Reaches.threads_subperm
    (h : Reaches ident ok s s')
    (henter : ∀ {a t}, ¬ ok a (.enter t)) :
    s'.threads.Subperm s.threads := by
  refine h.invariant (I := fun a => a.threads.Subperm s.threads) (List.Subperm.refl _) ?_
  intro a b l ih hok hmove
  rcases hmove.threads_cases with ⟨hp, _⟩ | ⟨_, _, _, _, _, heq, _⟩ | ⟨t, rfl, _⟩ | ⟨t, _, hp, _⟩
  · exact hp.subperm.trans ih
  · exact heq ▸ ih
  · exact absurd hok henter
  · exact ((List.sublist_cons_self t b.threads).subperm.trans hp.symm.subperm).trans ih

/-- And where none is dropped or lost either, the threads are the same. -/
theorem Reaches.threads_perm
    (h : Reaches ident ok s s')
    (henter : ∀ {a t}, ¬ ok a (.enter t))
    (hdrop : ∀ {a t}, ¬ ok a (.drop t))
    (hlose : ∀ {a t}, ¬ ok a (.lose t)) :
    s'.threads.Perm s.threads := by
  refine h.invariant (I := fun a => a.threads.Perm s.threads) (List.Perm.refl _) ?_
  intro a b l ih hok hmove
  rcases hmove.threads_cases with ⟨hp, _⟩ | ⟨_, _, _, _, _, heq, _⟩ | ⟨t, rfl, _⟩ |
    ⟨t, rfl | rfl, _⟩
  · exact hp.trans ih
  · exact heq ▸ ih
  · exact absurd hok henter
  · exact absurd hok hdrop
  · exact absurd hok hlose

/-- Where no thread is blocked, whoever leaves the blocked ones is woken for a reason
that it had at the start. -/
theorem Reaches.left_blocked
    {t : τ}
    (h : Reaches ident ok s s')
    (hblock : ∀ {a u r}, ¬ ok a (.block u r))
    (ht : t ∈ s.blocked) :
    t ∈ s'.blocked ∨ ∃ r, (ident t, r) ∈ s.waits ∧ ∃ a, ok a (.wake t r) := by
  have hinv := h.invariant
    (I := fun a => (∀ x ∈ a.waits, x ∈ s.waits) ∧
      (t ∈ a.blocked ∨ ∃ r, (ident t, r) ∈ s.waits ∧ ∃ a, ok a (.wake t r)))
    ⟨fun _ hx => hx, Or.inl ht⟩ ?_
  · exact hinv.2
  rintro a b l ⟨hwaits, hcase⟩ hok hmove
  constructor
  · intro x hx
    refine hwaits x ?_
    cases hmove with
    | block hrun => exact absurd hok hblock
    | wake hblocked hw => exact hw ▸ Multiset.mem_cons_of_mem hx
    | post hnone hw => exact hw ▸ Multiset.mem_cons_of_mem hx
    | forget hw => exact hw ▸ Multiset.mem_cons_of_mem hx
    | _ => exact hx
  · rcases hcase with hblocked | hwoken
    · rcases hmove.mem_blocked hblocked with hstays | ⟨r, rfl⟩
      · exact Or.inl hstays
      · exact Or.inr ⟨r, hwaits _ hmove.wake_spec.2.1, a, hok⟩
    · exact Or.inr hwoken

variable [DecidableEq ι]

/-- A blocked thread keeps waiting for its reason until it is woken for it; then
it is ready, unless it was picked or lost since. -/
theorem Reaches.woken
    {t : τ} {r : ρ}
    (h : Reaches ident ok s s')
    (hs : Sound ident s)
    (hd : Distinct ident s)
    (henter : ∀ {a u}, ok a (.enter u) → ident u ∉ a.threads.map ident)
    (hforget : ∀ {a}, ¬ ok a (.forget (ident t) r))
    (ht : t ∈ s.blocked)
    (hr : (ident t, r) ∈ s.waits) :
    (t ∈ s'.blocked ∧ (ident t, r) ∈ s'.waits) ∨
    ((∃ a, ok a (.wake t r)) ∧
      ((∀ {a u}, ¬ ok a (.pick u)) → (∀ {a u}, ¬ ok a (.lose u)) → t ∈ s'.ready)) := by
  have hinv := h.invariant
    (I := fun a => Sound ident a ∧ Distinct ident a ∧
      ((t ∈ a.blocked ∧ (ident t, r) ∈ a.waits) ∨
      ((∃ a, ok a (.wake t r)) ∧
        ((∀ {a u}, ¬ ok a (.pick u)) → (∀ {a u}, ¬ ok a (.lose u)) → t ∈ a.ready))))
    ⟨hs, hd, Or.inl ⟨ht, hr⟩⟩ ?_
  · exact hinv.2.2
  rintro a b l ⟨hsa, hda, hcase⟩ hok hmove
  have hdb : Distinct ident b := hda.move hmove (fun u hu => henter (hu ▸ hok))
  refine ⟨hsa.move hmove, hdb, ?_⟩
  rcases hcase with ⟨hblocked, hwaits⟩ | ⟨hwoken, hready⟩
  · rcases hmove.mem_blocked hblocked with hstays | ⟨r', rfl⟩
    · rcases hmove.mem_waits hwaits with hkeeps | ⟨u, hu, rfl⟩ | rfl | rfl
      · exact Or.inl ⟨hstays, hkeeps⟩
      · -- the woken thread has the identifier of `t`, so it is `t`
        have hu' := hmove.wake_spec
        have htu : u = t := hda.eq_of_mem
          (mem_threads_of_blocked hu'.1) (mem_threads_of_blocked hblocked) hu
        subst htu
        exact Or.inr ⟨⟨a, hok⟩, fun _ _ => hu'.2.2⟩
      · cases hmove with
        | post hnone hw => exact (hsa.not_post hnone hw).elim
      · exact absurd hok hforget
    · have hu' := hmove.wake_spec
      have hrr : r = r' := hsa.reason_unique hda hwaits hu'.2.1
      subst hrr
      exact Or.inr ⟨⟨a, hok⟩, fun _ _ => hu'.2.2⟩
  · refine Or.inr ⟨hwoken, fun hpick hlose => ?_⟩
    rcases hmove.mem_ready (hready hpick hlose) with hb | rfl | rfl
    · exact hb
    · exact absurd hok hpick
    · exact absurd hok hlose

end Reach

end Pool

end Lib
end SinIdeas
