import SinIdeas.Lib.ProcessMachine

/-!
# Proof outlines

What holds of a thread, line by line: of its registers and of the memory that it shares.
An outline is sound if every instruction takes what holds at its line to what holds at
the line where it goes (its weakest precondition), and if no thread destroys what holds
of another one. A sound outline holds of every thread after any events. A variant that
goes down at every line until it is 0 says how many rounds of a thread are enough.
-/

namespace SinIdeas
namespace Lib
namespace ProcessMachine

universe u v

/-- What holds at a line of a program, of the registers and of the memory. -/
abbrev Assertion (ρ : Type u) := Nat → (ρ → Nat) → List UInt8 → Prop

/-- The assertions of every thread, by its identifier and its program. -/
abbrev Outline (ρ : Type u) (ι ν : Type v) := ι → ν → Assertion ρ

section Preconditions

variable {ρ : Type u} [DecidableEq ρ] {w k : Nat} {post : Assertion ρ} {line : Nat}
  {regs : ρ → Nat} {bytes : List UInt8}

/-- The weakest precondition of an instruction at a line. -/
def Instr.wp (w k : Nat) (post : Assertion ρ) (i : Instr ρ) : Assertion ρ := fun line regs bytes =>
  post (i.apply w k ⟨line, regs⟩ bytes).1.pc (i.apply w k ⟨line, regs⟩ bytes).1.regs
    (i.apply w k ⟨line, regs⟩ bytes).2

@[simp] theorem wp_set (r : ρ) (value : Nat) :
    (Instr.base (.set r value)).wp w k post line regs bytes ↔
      post ((line + 1) % 2 ^ w) (Function.update regs r value) bytes :=
  Iff.rfl

@[simp] theorem wp_sum (destiny origin : ρ) :
    (Instr.base (.sum destiny origin)).wp w k post line regs bytes ↔
      post ((line + 1) % 2 ^ w)
        (Function.update regs destiny ((regs destiny + regs origin) % 2 ^ w)) bytes :=
  Iff.rfl

@[simp] theorem wp_sub (destiny origin : ρ) :
    (Instr.base (.sub destiny origin)).wp w k post line regs bytes ↔
      post ((line + 1) % 2 ^ w)
        (Function.update regs destiny (regs destiny - regs origin)) bytes :=
  Iff.rfl

@[simp] theorem wp_jnz (r : ρ) (target : Nat) :
    (Instr.base (.jnz r target)).wp w k post line regs bytes ↔
      post (if regs r ≠ 0 then target else (line + 1) % 2 ^ w) regs bytes :=
  Iff.rfl

@[simp] theorem wp_skip :
    (Instr.base .skip).wp w k post line regs bytes ↔
      post ((line + 1) % 2 ^ w) regs bytes :=
  Iff.rfl

theorem wp_load
    {destiny address : ρ} {value : Nat}
    (h : wordIn k bytes (regs address) = some value) :
    (Instr.load destiny address).wp w k post line regs bytes ↔
      post ((line + 1) % 2 ^ w) (Function.update regs destiny value) bytes := by
  simp only [Instr.wp, Instr.apply, h]
  exact Iff.rfl

theorem wp_store
    {address origin : ρ} {bytes' : List UInt8}
    (h : putWord k bytes (regs address) (regs origin) = some bytes') :
    (Instr.store address origin).wp w k post line regs bytes ↔
      post ((line + 1) % 2 ^ w) regs bytes' := by
  simp only [Instr.wp, Instr.apply, h]
  exact Iff.rfl

end Preconditions

section Outlines

variable {ρ : Type u} [DecidableEq ρ] {ι ν : Type v} {w k : Nat}
  {code : ν → Nat → Option (Instr ρ)} {A : Outline ρ ι ν}

/-- Every line takes its assertion to the next one, and keeps those of other threads. -/
structure Sound (w k : Nat) (code : ν → Nat → Option (Instr ρ)) (A : Outline ρ ι ν) : Prop where
  correct : ∀ {id program line regs bytes i}, code program line = some i →
    A id program line regs bytes → i.wp w k (A id program) line regs bytes
  free : ∀ {id program line regs bytes i id' program' line' regs'}, id' ≠ id →
    code program line = some i → A id program line regs bytes →
    A id' program' line' regs' bytes →
    A id' program' line' regs' (i.apply w k ⟨line, regs⟩ bytes).2

/-- Every thread has an identifier of its own and is at a line whose assertion holds. -/
structure Annotated (A : Outline ρ ι ν) (s : State ρ ι ν) : Prop where
  distinct : (s.threads.map Thread.id).Nodup
  holds : ∀ t ∈ s.threads, A t.id t.program t.state.pc t.state.regs s.bytes

/-- A thread is created with a new identifier, where the first assertion of its program
holds. -/
def Starts (A : Outline ρ ι ν) (s : State ρ ι ν) : Event ι ν → Prop
  | .create id program =>
      id ∉ s.threads.map Thread.id ∧ A id program 0 (fun _ => 0) s.bytes
  | _ => True

omit [DecidableEq ρ] in
theorem starts_run (A : Outline ρ ι ν) (s : State ρ ι ν) (id : ι) : Starts A s (.run id) :=
  trivial

variable [DecidableEq ι] {s : State ρ ι ν}

/-- What a thread does when it runs. -/
theorem step_run_of_find
    {id : ι} {t : Thread ρ ι ν} {i : Instr ρ}
    (ht : s.threads.find? (fun t => t.id == id) = some t)
    (hcode : code t.program t.state.pc = some i) :
    ∃ a b, s.threads = a ++ t :: b ∧
      s.step w k code (.run id) =
        { threads := a ++ { t with state := (i.apply w k t.state s.bytes).1 } :: b
          bytes := (i.apply w k t.state s.bytes).2 } := by
  obtain ⟨a, b, hthreads, hmodify⟩ := modifyFirst_split
    (f := fun t : Thread ρ ι ν => { t with state := (i.apply w k t.state s.bytes).1 }) ht
  refine ⟨a, b, hthreads, ?_⟩
  simp only [State.step, ht, hcode, hmodify]

/-- An event keeps a sound outline. -/
theorem Annotated.step
    {e : Event ι ν}
    (hsound : Sound w k code A)
    (h : Annotated A s) (hstarts : Starts A s e) :
    Annotated A (s.step w k code e) := by
  cases e with
  | run id =>
      cases ht : s.threads.find? (fun t => t.id == id) with
      | none =>
          simpa only [State.step, ht] using h
      | some t =>
          cases hcode : code t.program t.state.pc with
          | none =>
              simpa only [State.step, ht, hcode] using h
          | some i =>
              obtain ⟨a, b, hthreads, hstep⟩ := step_run_of_find ht hcode
              have hdistinct := h.distinct
              have hholds := h.holds
              rw [hthreads] at hdistinct hholds
              have htholds := hholds t (by simp)
              rw [hstep]
              refine ⟨by simpa using hdistinct, ?_⟩
              intro u hu
              have hother : ∀ u, u ∈ a ∨ u ∈ b →
                  A u.id u.program u.state.pc u.state.regs (i.apply w k t.state s.bytes).2 := by
                intro u hu
                have hne : u.id ≠ t.id := by
                  simp only [List.map_append, List.map_cons, List.nodup_append, List.nodup_cons,
                    List.mem_map, List.mem_cons] at hdistinct
                  rcases hu with hu | hu
                  · exact hdistinct.2.2 u.id ⟨u, hu, rfl⟩ t.id (Or.inl rfl)
                  · exact fun heq => hdistinct.2.1.1 ⟨u, hu, heq⟩
                refine hsound.free hne hcode htholds (hholds u ?_)
                rcases hu with hu | hu <;> simp [hu]
              rcases List.mem_append.mp hu with hu | hu
              · exact hother u (Or.inl hu)
              · rcases List.mem_cons.mp hu with rfl | hu
                · exact hsound.correct hcode htholds
                · exact hother u (Or.inr hu)
  | create id program =>
      obtain ⟨hnew, hstart⟩ := hstarts
      refine ⟨?_, ?_⟩
      · simp only [State.step, List.map_append, List.map_cons, List.map_nil]
        exact List.nodup_append.mpr ⟨h.distinct, List.nodup_singleton _, by
          rintro a ha b hb rfl
          exact hnew (List.mem_singleton.mp hb ▸ ha)⟩
      · intro t ht
        rcases List.mem_append.mp ht with ht | ht
        · exact h.holds t ht
        · obtain rfl := List.mem_singleton.mp ht
          exact hstart
  | exit id =>
      have hsub : (s.threads.eraseP (fun t => t.id == id)).Sublist s.threads :=
        List.eraseP_sublist
      exact ⟨h.distinct.sublist (hsub.map _), fun t ht => h.holds t (hsub.subset ht)⟩

/-- A round leaves the threads that there are. -/
theorem ids_step_run (s : State ρ ι ν) (id : ι) :
    (s.step w k code (.run id)).threads.map Thread.id = s.threads.map Thread.id := by
  cases ht : s.threads.find? (fun t => t.id == id) with
  | none =>
      simp only [State.step, ht]
  | some t =>
      cases hcode : code t.program t.state.pc with
      | none =>
          simp only [State.step, ht, hcode]
      | some i =>
          obtain ⟨a, b, hthreads, hstep⟩ := step_run_of_find ht hcode
          rw [hstep, hthreads]
          simp

theorem ids_runs
    (w k : Nat) (code : ν → Nat → Option (Instr ρ)) {es : List (Event ι ν)}
    (hes : ∀ e ∈ es, ∃ id, e = .run id) :
    (es.foldl (State.step w k code) s).threads.map Thread.id = s.threads.map Thread.id := by
  induction es generalizing s with
  | nil =>
      rfl
  | cons e es ih =>
      obtain ⟨id, rfl⟩ := hes e List.mem_cons_self
      exact (ih (fun e he => hes e (List.mem_cons_of_mem _ he))).trans (ids_step_run s id)

/-- A number that goes down at every line of an outline until it is 0. -/
structure Variant (w k : Nat) (code : ν → Nat → Option (Instr ρ)) (A : Outline ρ ι ν)
    (V : ν → Nat → (ρ → Nat) → Nat) : Prop where
  decreases : ∀ {id program line regs bytes i}, code program line = some i →
    A id program line regs bytes →
    V program (i.apply w k ⟨line, regs⟩ bytes).1.pc (i.apply w k ⟨line, regs⟩ bytes).1.regs ≤
      V program line regs - 1
  ends : ∀ {id program line regs bytes}, code program line = none →
    A id program line regs bytes → V program line regs = 0

/-- The variant of a thread. -/
def rank (V : ν → Nat → (ρ → Nat) → Nat) (s : State ρ ι ν) (id : ι) : Nat :=
  ((s.threads.find? (fun t => t.id == id)).map
    (fun t => V t.program t.state.pc t.state.regs)).getD 0

variable {V : ν → Nat → (ρ → Nat) → Nat}

/-- A round of a thread takes one from its variant, and nothing from the others'. -/
theorem Annotated.rank_run
    (hvariant : Variant w k code A V)
    (h : Annotated A s) (id id' : ι) :
    rank V (s.step w k code (.run id')) id ≤ rank V s id - if id' = id then 1 else 0 := by
  cases ht : s.threads.find? (fun t => t.id == id') with
  | none =>
      simp only [State.step, ht]
      split_ifs with heq
      · subst heq
        simp [rank, ht]
      · exact Nat.le_refl _
  | some t =>
      have hid : t.id = id' := by simpa using List.find?_some ht
      have hholds := h.holds t (List.mem_of_find?_eq_some ht)
      cases hcode : code t.program t.state.pc with
      | none =>
          simp only [State.step, ht, hcode]
          split_ifs with heq
          · subst heq
            simp [rank, ht, hvariant.ends hcode hholds]
          · exact Nat.le_refl _
      | some i =>
          simp only [State.step, ht, hcode, rank]
          split_ifs with heq
          · subst heq
            rw [find?_modifyFirst (f := fun t : Thread ρ ι ν =>
              { t with state := (i.apply w k t.state s.bytes).1 }) (fun _ => rfl), ht]
            exact hvariant.decreases hcode hholds
          · rw [find?_modifyFirst_of_disjoint]
            · exact Nat.le_refl _
            · intro u hu
              have hne : (u.id == id) = false := by
                rw [beq_iff_eq.mp hu]
                exact beq_eq_false_iff_ne.mpr heq
              exact ⟨hne, hne⟩

/-- After as many rounds of a thread as its variant said, it is 0. -/
theorem Annotated.rank_runs
    [DecidableEq ν] {es : List (Event ι ν)}
    (hsound : Sound w k code A) (hvariant : Variant w k code A V)
    (h : Annotated A s) (hes : ∀ e ∈ es, ∃ id, e = .run id) (id : ι) :
    rank V (es.foldl (State.step w k code) s) id ≤ rank V s id - es.count (.run id) := by
  induction es generalizing s with
  | nil =>
      simp
  | cons e es ih =>
      obtain ⟨id', rfl⟩ := hes e List.mem_cons_self
      have hnext := ih (h.step hsound (starts_run A s id')) (fun e he => hes e (List.mem_cons_of_mem _ he))
      have hround := h.rank_run hvariant id id'
      rw [List.foldl_cons, List.count_cons]
      by_cases heq : id' = id
      · simp only [heq, if_true, beq_self_eq_true] at hround hnext ⊢
        omega
      · have hne : (Event.run id' : Event ι ν) ≠ .run id := fun h => heq (Event.run.inj h)
        simp only [if_neg heq, beq_eq_false_iff_ne.mpr hne] at hround hnext ⊢
        simp only [Bool.false_eq_true, if_false]
        omega

/-- A thread that runs often enough comes to where its variant is 0. -/
theorem Annotated.ends
    [DecidableEq ν] {es : List (Event ι ν)} {id : ι}
    (hsound : Sound w k code A) (hvariant : Variant w k code A V)
    (h : Annotated A s) (hes : ∀ e ∈ es, ∃ id, e = .run id)
    (hid : id ∈ s.threads.map Thread.id) (henough : rank V s id ≤ es.count (.run id)) :
    ∃ t ∈ (es.foldl (State.step w k code) s).threads, t.id = id ∧
      V t.program t.state.pc t.state.regs = 0 := by
  have hrank := h.rank_runs hsound hvariant hes id
  rw [← ids_runs w k code hes] at hid
  obtain ⟨t, ht, rfl⟩ := List.mem_map.mp hid
  cases hfind : (es.foldl (State.step w k code) s).threads.find? (fun u => u.id == t.id) with
  | none =>
      exact absurd (beq_self_eq_true t.id) (List.find?_eq_none.mp hfind t ht)
  | some u =>
      refine ⟨u, List.mem_of_find?_eq_some hfind, by simpa using List.find?_some hfind, ?_⟩
      simp only [rank, hfind, Option.map_some, Option.getD_some] at hrank henough
      omega

end Outlines

end ProcessMachine
end Lib
end SinIdeas
