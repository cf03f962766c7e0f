import Mathlib.Data.List.Basic

/-!
# Guarded runs of a labelled transition system

A system is a relation `R a e b`: from state `a` the label `e` can lead to
state `b`. A run is a list of labels taken one after another, each of them
meeting a guard `ok` in the state in which it is taken. The guard is how a
result says "in every run whose steps all meet this condition".

The one induction on runs that the development needs is `Run.invariant`. For
a system given by a partial function, `execute` computes the end of a run and
`run_of_execute` turns the computation into a run.
-/

namespace SinIdeas
namespace Lib

universe u v

variable {σ : Type u} {ε : Type v}

/-- `Run R ok s es t`: the labels `es` lead from `s` to `t` and each met `ok`. -/
inductive Run
    (R : σ → ε → σ → Prop)
    (ok : σ → ε → Prop)
    (s : σ) :
    List ε → σ → Prop
  | nil : Run R ok s [] s
  | snoc {es : List ε} {a b : σ} {e : ε} :
      Run R ok s es a →
      ok a e →
      R a e b →
      Run R ok s (es ++ [e]) b

/-- The guard that every label meets. -/
def anyLabel : σ → ε → Prop := fun _ _ => True

instance decidableAnyLabel (s : σ) (e : ε) : Decidable (anyLabel s e) :=
  inferInstanceAs (Decidable True)

section Rules

variable {R : σ → ε → σ → Prop} {ok ok' : σ → ε → Prop}

/-- What holds at the start and is kept by every guarded step holds at the end. -/
theorem Run.invariant
    {I : σ → Prop} {s t : σ} {es : List ε}
    (hrun : Run R ok s es t)
    (hstart : I s)
    (hstep : ∀ {a b : σ} {e : ε}, I a → ok a e → R a e b → I b) :
    I t := by
  induction hrun with
  | nil =>
      exact hstart
  | snoc _ hok hR ih =>
      exact hstep ih hok hR

/-- A run under a guard is a run under every weaker guard. -/
theorem Run.mono
    {s t : σ} {es : List ε}
    (hrun : Run R ok s es t)
    (hweak : ∀ {a : σ} {e : ε}, ok a e → ok' a e) :
    Run R ok' s es t := by
  induction hrun with
  | nil =>
      exact Run.nil
  | snoc _ hok hR ih =>
      exact Run.snoc ih (hweak hok) hR

/-- What the guard says of the labels alone holds of every one. -/
theorem Run.forall_labels
    {P : ε → Prop} {s t : σ} {es : List ε}
    (hrun : Run R ok s es t)
    (hlabel : ∀ {a : σ} {e : ε}, ok a e → P e) :
    ∀ e ∈ es, P e := by
  induction hrun with
  | nil =>
      simp
  | snoc _ hok _ ih =>
      intro e he
      rcases List.mem_append.mp he with he | he
      · exact ih e he
      · obtain rfl := List.mem_singleton.mp he
        exact hlabel hok

/-- What holds of every label may be added to the guard. -/
theorem Run.with_labels
    {P : ε → Prop} {s t : σ} {es : List ε}
    (hrun : Run R ok s es t)
    (hlabels : ∀ e ∈ es, P e) :
    Run R (fun a e => ok a e ∧ P e) s es t := by
  induction hrun with
  | nil =>
      exact Run.nil
  | snoc _ hok hR ih =>
      have hbefore := ih (fun e he => hlabels e (List.mem_append_left _ he))
      have hlast := hlabels _ (List.mem_append_right _ (List.mem_singleton_self _))
      exact Run.snoc hbefore ⟨hok, hlast⟩ hR

/-- A part of the guard can be seen as a part of the step. -/
theorem Run.and_guard
    {s t : σ} {es : List ε} :
    Run R (fun a e => ok a e ∧ ok' a e) s es t ↔
      Run (fun a e b => ok a e ∧ R a e b) ok' s es t := by
  constructor
  · intro hrun
    induction hrun with
    | nil =>
        exact Run.nil
    | snoc _ hok hR ih =>
        exact Run.snoc ih hok.2 ⟨hok.1, hR⟩
  · intro hrun
    induction hrun with
    | nil =>
        exact Run.nil
    | snoc _ hok hR ih =>
        exact Run.snoc ih ⟨hR.1, hok⟩ hR.2

/-- Where the guarded steps keep `S`, and a step that is not guarded leaves `S` for
a state without `P`, the guarded runs are those that stay in `P`. -/
theorem Run.guarded_iff_of_strong
    {S P : σ → Prop} {s t : σ} {es : List ε}
    (hstart : S s)
    (hweak : ∀ {a : σ}, S a → P a)
    (hstep : ∀ {a b : σ} {e : ε}, S a → R a e b → ok a e → S b)
    (hbad : ∀ {a b : σ} {e : ε}, S a → R a e b → ¬ ok a e → ¬ P b) :
    Run R ok s es t ↔ Run R (fun a _ => P a) s es t ∧ P t := by
  constructor
  · intro hrun
    suffices h : S t ∧ Run R (fun a _ => P a) s es t from ⟨h.2, hweak h.1⟩
    induction hrun with
    | nil =>
        exact ⟨hstart, Run.nil⟩
    | snoc _ hok hR ih =>
        obtain ⟨hS, hstay⟩ := ih
        exact ⟨hstep hS hR hok, Run.snoc hstay (hweak hS) hR⟩
  · rintro ⟨hrun, hP⟩
    suffices h : S t ∧ Run R ok s es t from h.2
    induction hrun with
    | nil =>
        exact ⟨hstart, Run.nil⟩
    | @snoc es a b e _ hPa hR ih =>
        obtain ⟨hS, hguarded⟩ := ih hPa
        have hok : ok a e := by
          by_contra hno
          exact hbad hS hR hno hP
        exact ⟨hstep hS hR hok, Run.snoc hguarded hok hR⟩

/-- Where a step keeps `I` exactly when it is guarded, the guarded runs are those
that stay in `I`. -/
theorem Run.guarded_iff
    {I J : σ → Prop} {s t : σ} {es : List ε}
    (hstart : J s ∧ I s)
    (hkeep : ∀ {a b : σ} {e : ε}, J a → R a e b → J b)
    (hstep : ∀ {a b : σ} {e : ε}, J a → I a → R a e b → (ok a e ↔ I b)) :
    Run R ok s es t ↔ Run R (fun a _ => I a) s es t ∧ I t := by
  have hstrong : ∀ {a b : σ} {e : ε}, J a ∧ I a → R a e b → ok a e → J b ∧ I b := by
    rintro a b e ⟨hJ, hI⟩ hR hok
    exact ⟨hkeep hJ hR, (hstep hJ hI hR).mp hok⟩
  have hbad : ∀ {a b : σ} {e : ε}, J a ∧ I a → R a e b → ¬ ok a e → ¬ I b := by
    rintro a b e ⟨hJ, hI⟩ hR hno hIb
    exact hno ((hstep hJ hI hR).mpr hIb)
  exact Run.guarded_iff_of_strong hstart And.right hstrong hbad

/-- Runs compose. -/
theorem Run.append
    {s t u : σ} {es fs : List ε}
    (h₁ : Run R ok s es t)
    (h₂ : Run R ok t fs u) :
    Run R ok s (es ++ fs) u := by
  induction h₂ with
  | nil =>
      simpa using h₁
  | snoc _ hok hR ih =>
      rw [← List.append_assoc]
      exact Run.snoc ih hok hR

/-- A step followed by a run. -/
theorem Run.cons
    {s a t : σ} {e : ε} {es : List ε}
    (hok : ok s e)
    (hR : R s e a)
    (hrun : Run R ok a es t) :
    Run R ok s (e :: es) t := by
  have hone : Run R ok s [e] a := Run.snoc Run.nil hok hR
  exact hone.append hrun

end Rules

section Execution

variable (f : σ → ε → Option σ)

/-- The end of the run along `es`, when every step is enabled. -/
def execute (s : σ) : List ε → Option σ
  | [] => some s
  | e :: es =>
      match f s e with
      | some t => execute t es
      | none => none

/-- The guard holds of every label of `es`, taken from `s` on. -/
def guarded (ok : σ → ε → Prop) (s : σ) : List ε → Prop
  | [] => True
  | e :: es =>
      ok s e ∧
        match f s e with
        | some t => guarded ok t es
        | none => True

instance decidableGuarded
    (ok : σ → ε → Prop) [∀ s e, Decidable (ok s e)] :
    ∀ (es : List ε) (s : σ), Decidable (guarded f ok s es)
  | [], _ => inferInstanceAs (Decidable True)
  | e :: es, s =>
      match h : f s e with
      | some t =>
          have := decidableGuarded ok es t
          decidable_of_iff (ok s e ∧ guarded f ok t es) (by simp [guarded, h])
      | none =>
          decidable_of_iff (ok s e) (by simp [guarded, h])

variable {f}

/-- Every execution is guarded by the guard that every label meets. -/
theorem guarded_anyLabel
    (s : σ) (es : List ε) :
    guarded f anyLabel s es := by
  induction es generalizing s with
  | nil =>
      trivial
  | cons e es ih =>
      refine ⟨trivial, ?_⟩
      split
      · exact ih _
      · trivial

/-- An execution with one more step. -/
theorem execute_append
    {s a b : σ} {es : List ε} {e : ε}
    (hexec : execute f s es = some a)
    (hstep : f a e = some b) :
    execute f s (es ++ [e]) = some b := by
  induction es generalizing s with
  | nil =>
      cases hexec
      simp [execute, hstep]
  | cons x es ih =>
      cases hx : f s x with
      | none =>
          simp [execute, hx] at hexec
      | some u =>
          simp only [execute, hx] at hexec
          simp only [List.cons_append, execute, hx]
          exact ih hexec

/-- A run of a step function is its execution. -/
theorem execute_of_run
    {ok : σ → ε → Prop} {s t : σ} {es : List ε}
    (hrun : Run (fun a e b => f a e = some b) ok s es t) :
    execute f s es = some t := by
  induction hrun with
  | nil =>
      rfl
  | snoc _ _ hR ih =>
      exact execute_append ih hR

variable (f)

/-- A computed execution is a run. -/
theorem run_of_execute
    {R : σ → ε → σ → Prop} {ok : σ → ε → Prop}
    (hf : ∀ {a b : σ} {e : ε}, f a e = some b → R a e b)
    {s t : σ} {es : List ε}
    (hguard : guarded f ok s es)
    (hexec : execute f s es = some t) :
    Run R ok s es t := by
  induction es generalizing s with
  | nil =>
      cases hexec
      exact Run.nil
  | cons e es ih =>
      simp only [execute, guarded] at hexec hguard
      cases hstep : f s e with
      | none =>
          simp [hstep] at hexec
      | some a =>
          simp only [hstep] at hexec hguard
          exact Run.cons hguard.1 (hf hstep) (ih hguard.2 hexec)

/-- The end of a computed execution is reached by a run. -/
theorem run_of_isSome
    {R : σ → ε → σ → Prop} {ok : σ → ε → Prop}
    (hf : ∀ {a b : σ} {e : ε}, f a e = some b → R a e b)
    {s : σ} {es : List ε}
    (hguard : guarded f ok s es)
    (hexec : (execute f s es).isSome) :
    Run R ok s es ((execute f s es).get hexec) :=
  run_of_execute f hf hguard (Option.some_get hexec).symm

end Execution

end Lib
end SinIdeas
