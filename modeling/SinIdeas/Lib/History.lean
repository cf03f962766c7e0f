import SinIdeas.Lib.Runs

/-!
# History variables and loops

A history variable is computed along the run of a partial step function and read
by nothing in the system; `Run.history` is the invariant rule for a state together
with its history.

A loop `while (f());` over a state calls `f` until it answers `false`.
`LoopRun f s vs t` says that it ends, with the states `vs` in which `f` is called;
`loopRun_of_measure` gives the end from a measure that every round lowers.

Where a round can fail or the loop can go on for ever, `Ends f s t` says that the loop
ends in `t`; its rules follow the first round.
-/

namespace SinIdeas
namespace Lib

universe u v w

variable {σ : Type u} {ε : Type v} {η : Type w}

section Histories

variable (f : σ → ε → Option σ) (upd : η → σ → ε → η)

/-- The history at the end of the run along `es`. -/
def history (h : η) (s : σ) : List ε → η
  | [] => h
  | e :: es =>
      match f s e with
      | some t => history (upd h s e) t es
      | none => h

variable {f upd}

/-- One more step is recorded at the end. -/
theorem history_append
    {ok : σ → ε → Prop} {h : η} {s a b : σ} {es : List ε} {e : ε}
    (hrun : Run (fun a e b => f a e = some b) ok s es a)
    (hstep : f a e = some b) :
    history f upd h s (es ++ [e]) = upd (history f upd h s es) a e := by
  have hexec := execute_of_run hrun
  clear hrun
  induction es generalizing s h with
  | nil =>
      cases hexec
      simp [history, hstep]
  | cons x es ih =>
      cases hx : f s x with
      | none =>
          simp [execute, hx] at hexec
      | some u =>
          simp only [execute, hx] at hexec
          simp only [List.cons_append, history, hx]
          exact ih hexec

/-- What holds of the start with its history and is kept by every step, with the
history it records, holds at the end. -/
theorem Run.history
    {ok : σ → ε → Prop} {I : η → σ → Prop} {h : η} {s t : σ} {es : List ε}
    (hrun : Run (fun a e b => f a e = some b) ok s es t)
    (hstart : I h s)
    (hstep : ∀ {l : η} {a b : σ} {e : ε}, I l a → ok a e → f a e = some b → I (upd l a e) b) :
    I (Lib.history f upd h s es) t := by
  induction hrun with
  | nil =>
      exact hstart
  | snoc hrun hok hR ih =>
      rw [history_append hrun hR]
      exact hstep ih hok hR

end Histories

section Loops

variable {f : σ → σ × Bool}

/-- The loop `while (f());` from `s` calls `f` in the states of the list and ends
in the last state. -/
inductive LoopRun
    (f : σ → σ × Bool) :
    σ → List σ → σ → Prop
  | exit {s : σ} :
      (f s).2 = false →
      LoopRun f s [s] (f s).1
  | round {s t : σ} {vs : List σ} :
      (f s).2 = true →
      LoopRun f (f s).1 vs t →
      LoopRun f s (s :: vs) t

/-- The states in which `f` is called in the first `n` rounds. -/
def loopCalls (f : σ → σ × Bool) : Nat → σ → List σ
  | 0, _ => []
  | n + 1, s => s :: if (f s).2 then loopCalls f n (f s).1 else []

/-- The state after at most `n` rounds. -/
def loopEnd (f : σ → σ × Bool) : Nat → σ → σ
  | 0, s => s
  | n + 1, s => if (f s).2 then loopEnd f n (f s).1 else (f s).1

/-- A loop whose rounds lower a measure ends. -/
theorem loopRun_of_measure
    {m : σ → Nat} {s : σ} {n : Nat}
    (hround : ∀ s, (f s).2 = true → m (f s).1 < m s)
    (hn : m s < n) :
    LoopRun f s (loopCalls f n s) (loopEnd f n s) := by
  induction n generalizing s with
  | zero =>
      omega
  | succ n ih =>
      cases hs : (f s).2 with
      | false =>
          simpa [loopCalls, loopEnd, hs] using LoopRun.exit hs
      | true =>
          have hlt := hround s hs
          have hrest := ih (s := (f s).1) (by omega)
          simpa [loopCalls, loopEnd, hs] using LoopRun.round hs hrest

/-- The loop ends with a call that answers `false`. -/
theorem LoopRun.last
    {s t : σ} {vs : List σ}
    (h : LoopRun f s vs t) :
    ∃ v ∈ vs, (f v).2 = false ∧ t = (f v).1 := by
  induction h with
  | exit hs =>
      exact ⟨_, List.mem_singleton_self _, hs, rfl⟩
  | round _ _ ih =>
      obtain ⟨v, hv, hlast⟩ := ih
      exact ⟨v, List.mem_cons_of_mem _ hv, hlast⟩

/-- What holds at the start and is kept by every call holds in every state in which
`f` is called and at the end. -/
theorem LoopRun.invariant
    {I : σ → Prop} {s t : σ} {vs : List σ}
    (h : LoopRun f s vs t)
    (hstart : I s)
    (hcall : ∀ {v : σ}, I v → I (f v).1) :
    (∀ v ∈ vs, I v) ∧ I t := by
  induction h with
  | exit hs =>
      constructor
      · intro v hv
        cases List.mem_singleton.mp hv
        exact hstart
      · exact hcall hstart
  | round hs _ ih =>
      obtain ⟨hcalls, hend⟩ := ih (hcall hstart)
      constructor
      · intro v hv
        rcases List.mem_cons.mp hv with rfl | hv
        · exact hstart
        · exact hcalls v hv
      · exact hend

/-- What holds at the start, with a log, and is kept by every call, with what the call
adds to the log, holds in every state in which `f` is called and at the end. -/
theorem LoopRun.logged
    {log : σ → List η} {I : List η → σ → Prop} {l : List η} {s t : σ} {vs : List σ}
    (h : LoopRun f s vs t)
    (hstart : I l s)
    (hcall : ∀ {l : List η} {v : σ}, I l v → I (l ++ log v) (f v).1) :
    (∀ v ∈ vs, ∃ l, I l v) ∧ I (l ++ vs.flatMap log) t := by
  induction h generalizing l with
  | exit hs =>
      constructor
      · intro v hv
        cases List.mem_singleton.mp hv
        exact ⟨l, hstart⟩
      · simpa using hcall hstart
  | round hs _ ih =>
      obtain ⟨hcalls, hend⟩ := ih (hcall hstart)
      constructor
      · intro v hv
        rcases List.mem_cons.mp hv with rfl | hv
        · exact ⟨l, hstart⟩
        · exact hcalls v hv
      · simpa using hend

end Loops

section Rounds

variable (f : σ → Option (σ × Bool))

/-- At most `n` rounds of a loop that goes on while the round answers `true`; none
when a round fails. -/
def rounds : Nat → σ → Option (σ × Bool)
  | 0, s => some (s, true)
  | n + 1, s => do
      let (t, again) ← f s
      if again then rounds n t else some (t, false)

/-- The loop ends in `t` after finitely many rounds. -/
def Ends (s t : σ) : Prop :=
  ∃ n, rounds f n s = some (t, false)

variable {f}

theorem ends_iff_of_again
    {s t u : σ}
    (h : f s = some (t, true)) :
    Ends f s u ↔ Ends f t u := by
  constructor
  · rintro ⟨n, hn⟩
    cases n with
    | zero =>
        simp [rounds] at hn
    | succ n =>
        exact ⟨n, by simpa [rounds, h] using hn⟩
  · rintro ⟨n, hn⟩
    exact ⟨n + 1, by simpa [rounds, h] using hn⟩

theorem ends_iff_of_exit
    {s t u : σ}
    (h : f s = some (t, false)) :
    Ends f s u ↔ u = t := by
  constructor
  · rintro ⟨n, hn⟩
    cases n with
    | zero =>
        simp [rounds] at hn
    | succ n =>
        have ht : t = u := by simpa [rounds, h] using hn
        exact ht.symm
  · rintro rfl
    exact ⟨1, by simp [rounds, h]⟩

theorem not_ends_of_fail
    {s u : σ}
    (h : f s = none) :
    ¬ Ends f s u := by
  rintro ⟨n, hn⟩
  cases n with
  | zero =>
      simp [rounds] at hn
  | succ n =>
      simp [rounds, h] at hn

/-- A loop whose rounds keep `I` and answer `true` goes on for ever. -/
theorem not_ends_of_invariant
    {I : σ → Prop} {s u : σ}
    (hstart : I s)
    (hround : ∀ s, I s → ∃ t, f s = some (t, true) ∧ I t) :
    ¬ Ends f s u := by
  rintro ⟨n, hn⟩
  induction n generalizing s with
  | zero =>
      simp [rounds] at hn
  | succ n ih =>
      obtain ⟨t, ht, hI⟩ := hround s hstart
      exact ih hI (by simpa [rounds, ht] using hn)

end Rounds

end Lib
end SinIdeas
