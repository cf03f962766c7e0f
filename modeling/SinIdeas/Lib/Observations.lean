import SinIdeas.Lib.Runs

/-!
# Runs that observe a deterministic machine

A machine is a partial step function. `firstStates step n s` are the states it goes
through in its first `n` steps from `s`, fewer if it stops. A system that keeps a
list of observed states follows the machine when each of its steps either leaves
the list and the current state alone or takes the machine one step and observes
the result; along every run it has then observed the first states. Where some of the
labels are the machine's own events, a run has taken it through these.
-/

namespace SinIdeas
namespace Lib

universe u v w

variable {σ : Type u} {ε : Type v} {τ : Type w}

section Machine

variable (step : τ → Option τ)

/-- The states after each of the first `n` steps. -/
def firstStates : Nat → τ → List τ
  | 0, _ => []
  | n + 1, s =>
      match step s with
      | none => []
      | some t => t :: firstStates n t

/-- The state after the steps that were observed. -/
def lastState (s : τ) (l : List τ) : τ := l.getLast?.getD s

@[simp] theorem lastState_nil (s : τ) : lastState s [] = s := rfl

@[simp] theorem lastState_append (s t : τ) (l : List τ) : lastState s (l ++ [t]) = t := by
  simp [lastState]

theorem lastState_cons (s t : τ) (l : List τ) : lastState s (t :: l) = lastState t l := by
  cases l with
  | nil =>
      rfl
  | cons u l =>
      simp [lastState, List.getLast?_cons]

variable {step}

/-- One more step is observed at the end. -/
theorem firstStates_append
    {s u : τ} {l : List τ}
    (hl : firstStates step l.length s = l)
    (hstep : step (lastState s l) = some u) :
    firstStates step (l.length + 1) s = l ++ [u] := by
  induction l generalizing s with
  | nil =>
      simp only [lastState_nil] at hstep
      simp [firstStates, hstep]
  | cons t l ih =>
      rw [lastState_cons] at hstep
      rw [List.length_cons, firstStates] at hl ⊢
      cases ht : step s with
      | none =>
          simp [ht] at hl
      | some t' =>
          simp only [ht, List.cons.injEq] at hl ⊢
          obtain ⟨rfl, hl⟩ := hl
          rw [ih hl hstep]
          simp

end Machine

section System

variable {R : σ → ε → σ → Prop} {ok : σ → ε → Prop} {step : τ → Option τ}
  {Rel : σ → τ → Prop}

/-- A system whose steps stutter or follow the machine observes its first states. -/
theorem Run.observes
    {x y : σ} {es : List ε} {s : τ}
    (hrun : Run R ok x es y)
    (obs : σ → List τ)
    (hobs : obs x = [])
    (hstart : Rel x s)
    (hstep : ∀ {a b : σ} {e : ε} {m : τ}, Rel a m → ok a e → R a e b →
      (obs b = obs a ∧ Rel b m) ∨
        ∃ m', step m = some m' ∧ obs b = obs a ++ [m'] ∧ Rel b m') :
    obs y = firstStates step (obs y).length s ∧ Rel y (lastState s (obs y)) := by
  refine hrun.invariant
    (I := fun y => obs y = firstStates step (obs y).length s ∧ Rel y (lastState s (obs y)))
    ?_ ?_
  · rw [hobs]
    exact ⟨rfl, hstart⟩
  · intro a b e ha hok hR
    obtain ⟨htrace, hrel⟩ := ha
    rcases hstep hrel hok hR with ⟨hsame, hb⟩ | ⟨m', hm', hmore, hb⟩
    · rw [hsame]
      exact ⟨htrace, hb⟩
    · rw [hmore, lastState_append, List.length_append]
      exact ⟨(firstStates_append htrace.symm hm').symm, hb⟩

/-- A system in which some of the labels move a machine and the others leave it alone:
after a run the machine has taken its own events, in order. -/
theorem Run.projects
    {δ : Type w} {x y : σ} {es : List ε} {s : τ}
    (Rel : σ → τ → Prop)
    (hrun : Run R ok x es y)
    (own : ε → Option δ) (apply : τ → δ → τ)
    (hstart : Rel x s)
    (hstep : ∀ {a b : σ} {e : ε} {m : τ}, Rel a m → ok a e → R a e b →
      Rel b ((own e).elim m (apply m))) :
    Rel y ((es.filterMap own).foldl apply s) := by
  induction hrun with
  | nil =>
      exact hstart
  | @snoc es a b e _ hok hR ih =>
      have hb := hstep ih hok hR
      rw [List.filterMap_append, List.foldl_append]
      cases hown : own e with
      | none =>
          simpa [List.filterMap, hown] using hb
      | some d =>
          simpa [List.filterMap, hown] using hb

end System

end Lib
end SinIdeas
