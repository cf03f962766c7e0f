import Mathlib.Data.List.Nodup
import Mathlib.Logic.Function.Basic

/-!
# FIFO locks with hand-off

A lock has an owner, if it is held, and a queue of agents that wait for it. `lock` takes
a free lock, is accepted without effect from the owner, and puts any other agent at the
end of the queue. `unlock` by the owner hands the lock to the head of the queue, or frees
it if nobody waits, and has no effect from any other agent.

A family of locks is used by agents that are silent while they wait. Then every lock is
`Valid`, no agent waits for two locks, and the agents that had to wait for a lock are, in
the order of their calls, those it was handed to and then those that still wait
(`handOffs_append_waiters`).
-/

namespace SinIdeas
namespace Lib

universe u v

/-- A lock: its owner, and who waits for it, the oldest first. -/
structure FifoLock (α : Type u) where
  owner : Option α
  waiters : List α
  deriving DecidableEq

/-- A call on a lock of a family. -/
inductive LockCall (ι : Type v) (α : Type u) where
  | lock (i : ι) (a : α)
  | unlock (i : ι) (a : α)

namespace FifoLock

variable {α : Type u}

/-- Nobody has the lock. -/
def free : FifoLock α where
  owner := none
  waiters := []

/-- A lock that is not held has no waiters, and the agents in it are distinct. -/
structure Valid (l : FifoLock α) : Prop where
  idle : l.owner = none → l.waiters = []
  owner_not_waiting : ∀ a, l.owner = some a → a ∉ l.waiters
  nodup : l.waiters.Nodup

variable [DecidableEq α]

/-- `lock` by `a`, and whether `a` goes on. -/
def lock (l : FifoLock α) (a : α) : FifoLock α × Bool :=
  match l.owner with
  | none => ({ l with owner := some a }, true)
  | some b => if b = a then (l, true) else ({ l with waiters := l.waiters ++ [a] }, false)

/-- `unlock` by `a`, and the agent to which it hands the lock. -/
def unlock (l : FifoLock α) (a : α) : FifoLock α × Option α :=
  if l.owner = some a then
    match l.waiters with
    | [] => (free, none)
    | b :: rest => ({ owner := some b, waiters := rest }, some b)
  else
    (l, none)

section Operations

variable {l : FifoLock α} {a b : α}

omit [DecidableEq α] in
theorem valid_free : Valid (free : FifoLock α) where
  idle := fun _ => rfl
  owner_not_waiting := fun _ h => by cases h
  nodup := List.nodup_nil

theorem lock_of_free
    (h : l.owner = none) :
    l.lock a = ({ l with owner := some a }, true) := by
  simp [lock, h]

theorem lock_of_owner
    (h : l.owner = some a) :
    l.lock a = (l, true) := by
  simp [lock, h]

theorem lock_of_other
    (h : l.owner = some b)
    (hne : b ≠ a) :
    l.lock a = ({ l with waiters := l.waiters ++ [a] }, false) := by
  simp [lock, h, hne]

theorem unlock_of_not_owner
    (h : l.owner ≠ some a) :
    l.unlock a = (l, none) := by
  simp [unlock, h]

theorem unlock_of_nil
    (h : l.owner = some a)
    (hwaiters : l.waiters = []) :
    l.unlock a = (free, none) := by
  simp [unlock, h, hwaiters]

theorem unlock_of_cons
    {rest : List α}
    (h : l.owner = some a)
    (hwaiters : l.waiters = b :: rest) :
    l.unlock a = ({ owner := some b, waiters := rest }, some b) := by
  simp [unlock, h, hwaiters]

/-- Who waits after a `lock`: who waited before, and the caller if it was blocked. -/
theorem lock_waiters
    (l : FifoLock α) (a : α) :
    (l.lock a).1.waiters = l.waiters ++ (if (l.lock a).2 then [] else [a]) := by
  cases howner : l.owner with
  | none =>
      simp [lock_of_free howner]
  | some b =>
      by_cases hb : b = a
      · simp [lock_of_owner (hb ▸ howner)]
      · simp [lock_of_other howner hb]

/-- Who waited before an `unlock`: the agent it hands the lock to, and who waits after. -/
theorem unlock_waiters
    (l : FifoLock α) (a : α) :
    l.waiters = (l.unlock a).2.toList ++ (l.unlock a).1.waiters := by
  unfold unlock
  split_ifs
  · split
    · rename_i hwaiters
      simp [hwaiters, free]
    · rename_i hwaiters
      simp [hwaiters]
  · simp

theorem Valid.lock
    (h : l.Valid)
    (hsilent : a ∉ l.waiters) :
    (l.lock a).1.Valid := by
  cases howner : l.owner with
  | none =>
      rw [lock_of_free howner]
      refine ⟨?_, ?_, h.nodup⟩
      · intro hno
        cases hno
      · intro b hb
        cases hb
        exact hsilent
  | some b =>
      by_cases hb : b = a
      · rw [lock_of_owner (hb ▸ howner)]
        exact h
      · rw [lock_of_other howner hb]
        refine ⟨?_, ?_, ?_⟩
        · intro hno
          rw [howner] at hno
          cases hno
        · intro c hc
          cases howner.symm.trans hc
          rw [List.mem_append, List.mem_singleton, not_or]
          exact ⟨h.owner_not_waiting b howner, hb⟩
        · exact h.nodup.append (List.nodup_singleton a) (by simpa using hsilent)

theorem Valid.unlock
    (h : l.Valid) :
    (l.unlock a).1.Valid := by
  by_cases howner : l.owner = some a
  · cases hwaiters : l.waiters with
    | nil =>
        rw [unlock_of_nil howner hwaiters]
        exact valid_free
    | cons b rest =>
        have hnodup := h.nodup
        rw [hwaiters, List.nodup_cons] at hnodup
        rw [unlock_of_cons howner hwaiters]
        refine ⟨?_, ?_, hnodup.2⟩
        · intro hno
          cases hno
        · intro c hc
          cases hc
          exact hnodup.1
  · rw [unlock_of_not_owner howner]
    exact h

end Operations

end FifoLock

section Family

variable {ι : Type v} {α : Type u} [DecidableEq ι] [DecidableEq α]

/-- The agent that calls. -/
def LockCall.caller : LockCall ι α → α
  | .lock _ a => a
  | .unlock _ a => a

/-- The lock that is called. -/
def LockCall.index : LockCall ι α → ι
  | .lock i _ => i
  | .unlock i _ => i

/-- The family after a call. -/
def LockCall.apply (locks : ι → FifoLock α) : LockCall ι α → ι → FifoLock α
  | .lock i a => Function.update locks i ((locks i).lock a).1
  | .unlock i a => Function.update locks i ((locks i).unlock a).1

/-- The agent that the call puts in the queue of the lock `i`. -/
def LockCall.blocks (locks : ι → FifoLock α) (i : ι) : LockCall ι α → List α
  | .lock j a => if j = i ∧ ((locks j).lock a).2 = false then [a] else []
  | .unlock _ _ => []

/-- The agent that the call hands the lock `i` to. -/
def LockCall.hands (locks : ι → FifoLock α) (i : ι) : LockCall ι α → List α
  | .lock _ _ => []
  | .unlock j a => if j = i then ((locks j).unlock a).2.toList else []

/-- The family after a sequence of calls. -/
def runLocks (locks : ι → FifoLock α) (calls : List (LockCall ι α)) : ι → FifoLock α :=
  calls.foldl LockCall.apply locks

/-- The agents that had to wait for the lock `i`, in the order of their calls. -/
def blockedCalls (locks : ι → FifoLock α) (i : ι) : List (LockCall ι α) → List α
  | [] => []
  | c :: calls => c.blocks locks i ++ blockedCalls (c.apply locks) i calls

/-- The agents that the lock `i` was handed to, in the order of the unlocks. -/
def handOffs (locks : ι → FifoLock α) (i : ι) : List (LockCall ι α) → List α
  | [] => []
  | c :: calls => c.hands locks i ++ handOffs (c.apply locks) i calls

/-- Every lock is valid, and no agent waits for two locks. -/
structure ValidLocks (locks : ι → FifoLock α) : Prop where
  valid : ∀ i, (locks i).Valid
  one_queue : ∀ {i j : ι} {a : α}, a ∈ (locks i).waiters → a ∈ (locks j).waiters → i = j

/-- The agents in the family are of the set. -/
structure Within (agents : α → Prop) (locks : ι → FifoLock α) : Prop where
  owners : ∀ {i : ι} {a : α}, (locks i).owner = some a → agents a
  waiters : ∀ {i : ι} {a : α}, a ∈ (locks i).waiters → agents a

/-- The agent waits for no lock. -/
def Silent (locks : ι → FifoLock α) (a : α) : Prop := ∀ i, a ∉ (locks i).waiters

section Calls

variable {locks : ι → FifoLock α} {i : ι} {c : LockCall ι α}

theorem runLocks_append
    (calls more : List (LockCall ι α)) :
    runLocks locks (calls ++ more) = runLocks (runLocks locks calls) more :=
  List.foldl_append

omit [DecidableEq α] [DecidableEq ι] in
theorem validLocks_free : ValidLocks (fun _ => FifoLock.free : ι → FifoLock α) where
  valid := fun _ => FifoLock.valid_free
  one_queue := fun h _ => by cases h

/-- One call: who waits, and was blocked, is handed the lock or waits. -/
theorem waiters_append_blocks
    (locks : ι → FifoLock α) (i : ι) (c : LockCall ι α) :
    (locks i).waiters ++ c.blocks locks i =
      c.hands locks i ++ (c.apply locks i).waiters := by
  cases c with
  | lock j a =>
      by_cases hj : j = i
      · subst hj
        simp only [LockCall.apply, LockCall.blocks, LockCall.hands, Function.update_self,
          true_and, List.nil_append, FifoLock.lock_waiters]
        cases ((locks j).lock a).2
        · simp
        · simp
      · simp [LockCall.apply, LockCall.blocks, LockCall.hands, hj,
          Function.update_of_ne (Ne.symm hj)]
  | unlock j a =>
      by_cases hj : j = i
      · subst hj
        simp only [LockCall.apply, LockCall.blocks, LockCall.hands, Function.update_self,
          if_true, List.append_nil]
        exact FifoLock.unlock_waiters _ _
      · simp [LockCall.apply, LockCall.blocks, LockCall.hands, hj,
          Function.update_of_ne (Ne.symm hj)]

/-- The agents that had to wait for a lock are, in the order of their calls, those it was
handed to and then those that wait. -/
theorem handOffs_append_waiters
    (locks : ι → FifoLock α) (i : ι) (calls : List (LockCall ι α)) :
    (locks i).waiters ++ blockedCalls locks i calls =
      handOffs locks i calls ++ (runLocks locks calls i).waiters := by
  induction calls generalizing locks with
  | nil =>
      simp [blockedCalls, handOffs, runLocks]
  | cons c calls ih =>
      have hrest := ih (c.apply locks)
      rw [blockedCalls, handOffs, ← List.append_assoc, waiters_append_blocks, List.append_assoc,
        hrest, List.append_assoc]
      rfl

/-- Only the caller is put in a queue, and only in that of the lock it calls. -/
theorem mem_blocks
    {a : α}
    (h : a ∈ c.blocks locks i) :
    a = c.caller ∧ i = c.index := by
  cases c with
  | lock j b =>
      simp only [LockCall.blocks] at h
      split_ifs at h with hj
      · exact ⟨List.mem_singleton.mp h, hj.1.symm⟩
      · cases h
  | unlock j b =>
      cases h

/-- Who waits after a call waited before or was blocked by it. -/
theorem mem_waiters_apply
    {a : α}
    (h : a ∈ (c.apply locks i).waiters) :
    a ∈ (locks i).waiters ∨ a ∈ c.blocks locks i := by
  rw [← List.mem_append, waiters_append_blocks]
  exact List.mem_append_right _ h

/-- Who waits for some lock after a `lock`. -/
theorem waiting_lock
    (locks : ι → FifoLock α) (i : ι) (a b : α) :
    (∃ j, b ∈ ((LockCall.lock i a).apply locks j).waiters) ↔
      (∃ j, b ∈ (locks j).waiters) ∨ (((locks i).lock a).2 = false ∧ b = a) := by
  constructor
  · rintro ⟨j, hj⟩
    rcases mem_waiters_apply hj with hj | hj
    · exact Or.inl ⟨j, hj⟩
    · simp only [LockCall.blocks] at hj
      split_ifs at hj with hblocked
      · exact Or.inr ⟨hblocked.2, List.mem_singleton.mp hj⟩
      · cases hj
  · rintro (⟨j, hj⟩ | ⟨hblocked, rfl⟩)
    · refine ⟨j, ?_⟩
      have hmem := waiters_append_blocks locks j (LockCall.lock i a)
      simp only [LockCall.hands, List.nil_append] at hmem
      rw [← hmem]
      exact List.mem_append_left _ hj
    · refine ⟨i, ?_⟩
      simp [LockCall.apply, FifoLock.lock_waiters, hblocked]

/-- Who waits for some lock after an `unlock`. -/
theorem waiting_unlock
    (h : ValidLocks locks)
    (i : ι) (a b : α) :
    (∃ j, b ∈ ((LockCall.unlock i a).apply locks j).waiters) ↔
      (∃ j, b ∈ (locks j).waiters) ∧ ((locks i).unlock a).2 ≠ some b := by
  have hsplit := FifoLock.unlock_waiters (locks i) a
  constructor
  · rintro ⟨j, hj⟩
    have hwaits : b ∈ (locks j).waiters := by
      rcases mem_waiters_apply hj with hj | hj
      · exact hj
      · cases hj
    refine ⟨⟨j, hwaits⟩, ?_⟩
    intro hhanded
    rw [hhanded] at hsplit
    have hi : b ∈ (locks i).waiters := by
      rw [hsplit]
      exact List.mem_append_left _ (by simp)
    obtain rfl := h.one_queue hi hwaits
    have hnodup := (h.valid i).nodup
    rw [hsplit] at hnodup
    simp only [LockCall.apply, Function.update_self] at hj
    exact (List.nodup_cons.mp hnodup).1 hj
  · rintro ⟨⟨j, hj⟩, hno⟩
    refine ⟨j, ?_⟩
    by_cases hij : j = i
    · subst hij
      rw [hsplit] at hj
      rcases List.mem_append.mp hj with hj | hj
      · exact absurd (Option.mem_toList.mp hj) hno
      · simpa [LockCall.apply] using hj
    · simpa [LockCall.apply, Function.update_of_ne hij] using hj

/-- A call of a silent agent keeps the family valid. -/
theorem ValidLocks.apply
    (h : ValidLocks locks)
    (hsilent : Silent locks c.caller) :
    ValidLocks (c.apply locks) := by
  constructor
  · intro i
    cases c with
    | lock j a =>
        by_cases hj : i = j
        · subst hj
          have hvalid : ((locks i).lock a).1.Valid := (h.valid i).lock (hsilent i)
          simpa [LockCall.apply] using hvalid
        · simpa [LockCall.apply, Function.update_of_ne hj] using h.valid i
    | unlock j a =>
        by_cases hj : i = j
        · subst hj
          simpa [LockCall.apply] using (h.valid i).unlock
        · simpa [LockCall.apply, Function.update_of_ne hj] using h.valid i
  · intro i j a hi hj
    rcases mem_waiters_apply hi with hi | hi
    · rcases mem_waiters_apply hj with hj | hj
      · exact h.one_queue hi hj
      · obtain ⟨rfl, _⟩ := mem_blocks hj
        exact absurd hi (hsilent i)
    · obtain ⟨rfl, rfl⟩ := mem_blocks hi
      rcases mem_waiters_apply hj with hj | hj
      · exact absurd hj (hsilent j)
      · exact (mem_blocks hj).2.symm

/-- An owner after a call was the owner, called, or waited. -/
theorem owner_apply
    {a : α}
    (h : (c.apply locks i).owner = some a) :
    (locks i).owner = some a ∨ a = c.caller ∨ a ∈ (locks i).waiters := by
  cases c with
  | lock j b =>
      by_cases hj : i = j
      · subst hj
        simp only [LockCall.apply, Function.update_self] at h
        cases howner : (locks i).owner with
        | none =>
            rw [FifoLock.lock_of_free howner] at h
            cases h
            exact Or.inr (Or.inl rfl)
        | some x =>
            by_cases hx : x = b
            · rw [FifoLock.lock_of_owner (hx ▸ howner)] at h
              exact Or.inl (howner ▸ h)
            · rw [FifoLock.lock_of_other howner hx] at h
              exact Or.inl (howner ▸ h)
      · simp only [LockCall.apply, Function.update_of_ne hj] at h
        exact Or.inl h
  | unlock j b =>
      by_cases hj : i = j
      · subst hj
        simp only [LockCall.apply, Function.update_self] at h
        by_cases howner : (locks i).owner = some b
        · cases hwaiters : (locks i).waiters with
          | nil =>
              rw [FifoLock.unlock_of_nil howner hwaiters] at h
              cases h
          | cons x rest =>
              rw [FifoLock.unlock_of_cons howner hwaiters] at h
              cases h
              exact Or.inr (Or.inr List.mem_cons_self)
        · rw [FifoLock.unlock_of_not_owner howner] at h
          exact Or.inl h
      · simp only [LockCall.apply, Function.update_of_ne hj] at h
        exact Or.inl h

/-- Calls of agents of the set keep the family in it. -/
theorem Within.apply
    {agents : α → Prop}
    (h : Within agents locks)
    (hcaller : agents c.caller) :
    Within agents (c.apply locks) := by
  constructor
  · intro i a ha
    rcases owner_apply ha with ha | rfl | ha
    · exact h.owners ha
    · exact hcaller
    · exact h.waiters ha
  · intro i a ha
    rcases mem_waiters_apply ha with ha | ha
    · exact h.waiters ha
    · rw [(mem_blocks ha).1]
      exact hcaller

end Calls

end Family

end Lib
end SinIdeas
