import Mathlib.Data.List.TakeWhile
import Mathlib.Data.List.Basic

/-!
# Strings in memory and their tokens

The tokens of a text are its longest pieces without separators. `tokens` is that
view; `strtok` is the function of the C library, which cuts them out of a string
in memory one call at a time, overwriting the separator after each of them and
keeping a pointer to what is left.

A heap is a list of blocks, a pointer is a position in one of them, and an
operation that touches memory it does not have leaves no result. `Heap.Keeps b`
is the frame of everything that works on the block `b`: the other blocks that
were there keep their bytes.
-/

namespace SinIdeas
namespace Lib

/-! ## Tokens -/

section Tokens

variable {α : Type} {sep : α → Bool}

/-- The pieces between separators that are not empty. -/
def tokens (sep : α → Bool) (s : List α) : List (List α) :=
  (s.splitOnP sep).filter (fun token => !token.isEmpty)

@[simp] theorem tokens_nil :
    tokens sep [] = [] := by
  simp [tokens, List.splitOnP_nil]

/-- A separator ends whatever stands before it. -/
theorem tokens_append_sep
    {c : α}
    (hc : sep c = true)
    (s t : List α) :
    tokens sep (s ++ c :: t) = tokens sep s ++ tokens sep t := by
  unfold tokens
  rw [List.splitOnP_append_cons s t hc, List.filter_append]

theorem tokens_cons_sep
    {c : α}
    (hc : sep c = true)
    (s : List α) :
    tokens sep (c :: s) = tokens sep s := by
  simpa using tokens_append_sep hc [] s

theorem tokens_singleton
    {token : List α}
    (hne : token ≠ [])
    (htoken : ∀ c ∈ token, sep c = false) :
    tokens sep token = [token] := by
  unfold tokens
  rw [List.splitOnP_eq_singleton htoken]
  simp [hne]

theorem tokens_dropWhile (sep : α → Bool) (s : List α) :
    tokens sep (s.dropWhile sep) = tokens sep s := by
  induction s with
  | nil =>
      rfl
  | cons c s ih =>
      cases hc : sep c with
      | false =>
          simp [hc]
      | true =>
          rw [List.dropWhile_cons_of_pos hc, tokens_cons_sep hc, ih]

theorem tokens_replicate_append
    {c : α}
    (hc : sep c = true)
    (n : Nat) (s : List α) :
    tokens sep (List.replicate n c ++ s) = tokens sep s := by
  induction n with
  | zero =>
      simp
  | succ n ih =>
      rw [List.replicate_succ, List.cons_append, tokens_cons_sep hc, ih]

/-- The first token ends at the first separator, and the others come after it. -/
theorem tokens_eq_cons
    (sep : α → Bool)
    {s : List α}
    (hs : s ≠ [])
    (hhead : ∀ c, s.head? = some c → sep c = false) :
    tokens sep s =
      s.takeWhile (fun c => !sep c) :: tokens sep (s.dropWhile (fun c => !sep c)) := by
  have hne : s.takeWhile (fun c => !sep c) ≠ [] := by
    cases s with
    | nil =>
        exact absurd rfl hs
    | cons c s =>
        simp [hhead c rfl]
  have htoken : ∀ c ∈ s.takeWhile (fun c => !sep c), sep c = false := by
    intro c hc
    simpa using List.mem_takeWhile_imp hc
  have hsplit : s.takeWhile (fun c => !sep c) ++ s.dropWhile (fun c => !sep c) = s :=
    List.takeWhile_append_dropWhile
  have hrest := List.head?_dropWhile_not (fun c => !sep c) s
  cases hcases : s.dropWhile (fun c => !sep c) with
  | nil =>
      rw [hcases, List.append_nil] at hsplit
      rw [tokens_nil, ← tokens_singleton hne htoken, hsplit]
  | cons c rest =>
      rw [hcases] at hsplit hrest
      have hc : sep c = true := by simpa using hrest
      rw [tokens_cons_sep hc, ← List.singleton_append, ← tokens_singleton hne htoken,
        ← tokens_append_sep hc, hsplit]

/-- Texts, each after one separator and as many more as its number says. -/
def spaced (c : α) (pieces : List (Nat × List α)) : List α :=
  pieces.flatMap (fun piece => List.replicate (piece.1 + 1) c ++ piece.2)

theorem length_le_length_spaced
    (c : α) (pieces : List (Nat × List α)) :
    pieces.length ≤ (spaced c pieces).length := by
  induction pieces with
  | nil =>
      exact Nat.zero_le _
  | cons piece pieces ih =>
      simp only [spaced, List.flatMap_cons, List.length_append, List.length_replicate,
        List.length_cons] at ih ⊢
      omega

/-- However many separators stand between them and at the end. -/
theorem tokens_append_spaced
    {c : α}
    (hc : sep c = true)
    (pieces : List (Nat × List α))
    (hpieces : ∀ piece ∈ pieces, piece.2 ≠ [] ∧ ∀ a ∈ piece.2, sep a = false)
    (s : List α) (n : Nat) :
    tokens sep (s ++ (spaced c pieces ++ List.replicate n c)) =
      tokens sep s ++ pieces.map Prod.snd := by
  induction pieces generalizing s with
  | nil =>
      cases n with
      | zero =>
          simp [spaced]
      | succ n =>
          rw [List.replicate_succ]
          simp only [spaced, List.flatMap_nil, List.nil_append, List.map_nil]
          rw [tokens_append_sep hc, ← List.append_nil (List.replicate n c),
            tokens_replicate_append hc, tokens_nil]
  | cons piece pieces ih =>
      have hpiece := hpieces piece List.mem_cons_self
      have ih := ih (fun p hp => hpieces p (List.mem_cons_of_mem piece hp)) piece.2
      have htext : s ++ (spaced c (piece :: pieces) ++ List.replicate n c) =
          s ++ c :: (List.replicate piece.1 c ++
            (piece.2 ++ (spaced c pieces ++ List.replicate n c))) := by
        simp [spaced, List.replicate_succ]
      rw [htext, tokens_append_sep hc, tokens_replicate_append hc, ih,
        tokens_singleton hpiece.1 hpiece.2]
      rfl

/-- Every text is a first piece, which may be empty, and tokens spaced after it. -/
theorem exists_spaced [DecidableEq α] (c : α) (s : List α) :
    ∃ first pieces n,
      s = first ++ (spaced c pieces ++ List.replicate n c) ∧
        c ∉ first ∧ ∀ piece ∈ pieces, piece.2 ≠ [] ∧ c ∉ piece.2 := by
  induction s with
  | nil =>
      exact ⟨[], [], 0, by simp [spaced], by simp, by simp⟩
  | cons a s ih =>
      obtain ⟨first, pieces, n, htext, hfirst, hpieces⟩ := ih
      by_cases ha : a = c
      · subst ha
        cases first with
        | nil =>
            cases pieces with
            | nil =>
                exact ⟨[], [], n + 1, by simp [htext, spaced, List.replicate_succ], by simp,
                  hpieces⟩
            | cons piece pieces =>
                refine ⟨[], (piece.1 + 1, piece.2) :: pieces, n, ?_, by simp, ?_⟩
                · simp [htext, spaced, List.replicate_succ]
                · intro p hp
                  cases hp with
                  | head =>
                      exact hpieces piece List.mem_cons_self
                  | tail _ hp =>
                      exact hpieces p (List.mem_cons_of_mem piece hp)
        | cons b first =>
            refine ⟨[], (0, b :: first) :: pieces, n, ?_, by simp, ?_⟩
            · simp [htext, spaced]
            · intro p hp
              cases hp with
              | head =>
                  exact ⟨by simp, hfirst⟩
              | tail _ hp =>
                  exact hpieces p hp
      · refine ⟨a :: first, pieces, n, by simp [htext], ?_, hpieces⟩
        simp [hfirst, Ne.symm ha]

end Tokens

/-! ## Memory -/

/-- A position in a block. -/
structure Ptr where
  block : Nat
  offset : Nat
  deriving DecidableEq

/-- Pointer arithmetic. -/
def Ptr.add (p : Ptr) (n : Nat) : Ptr :=
  { p with offset := p.offset + n }

@[simp] theorem Ptr.add_block
    (p : Ptr) (n : Nat) :
    (p.add n).block = p.block := by
  rfl

/-- The blocks handed out so far; nothing is left of one that was freed. -/
structure Heap (α : Type) where
  blocks : List (Option (List α))
  deriving DecidableEq

namespace Heap

variable {α : Type}

/-- The bytes of a block, unless it was freed or never handed out. -/
def block (h : Heap α) (b : Nat) : Option (List α) :=
  h.blocks[b]?.join

/-- `malloc` of a block that is filled at once. -/
def alloc (h : Heap α) (bytes : List α) : Heap α × Ptr :=
  ({ blocks := h.blocks ++ [some bytes] }, { block := h.blocks.length, offset := 0 })

/-- Replace what is left of a block. -/
def setBlock (h : Heap α) (b : Nat) (content : Option (List α)) : Heap α :=
  { blocks := h.blocks.set b content }

/-- `free`. -/
def free (h : Heap α) (p : Ptr) : Option (Heap α) :=
  if p.offset = 0 ∧ (h.block p.block).isSome then some (h.setBlock p.block none) else none

/-- Write one character. -/
def poke (h : Heap α) (p : Ptr) (c : α) : Option (Heap α) := do
  let bytes ← h.block p.block
  if p.offset < bytes.length then
    some (h.setBlock p.block (some (bytes.set p.offset c)))
  else
    none

/-- The characters up to the terminator, which has to be in the block. -/
def cstring [DecidableEq α] (nul : α) (h : Heap α) (p : Ptr) : Option (List α) := do
  let bytes ← h.block p.block
  if nul ∈ bytes.drop p.offset then
    some ((bytes.drop p.offset).takeWhile (fun c => c ≠ nul))
  else
    none

/-- `strdup`. -/
def strdup [DecidableEq α] (nul : α) (h : Heap α) (p : Ptr) : Option (Heap α × Ptr) := do
  let s ← h.cstring nul p
  some (h.alloc (s ++ [nul]))

/-- The blocks that were there keep their bytes, but for the block `b`. -/
structure Keeps (b : Nat) (h h' : Heap α) : Prop where
  grows : h.blocks.length ≤ h'.blocks.length
  others : ∀ b', b' < h.blocks.length → b' ≠ b → h'.block b' = h.block b'

namespace Keeps

variable {b : Nat} {h h' h'' : Heap α}

theorem refl : Keeps b h h where
  grows := Nat.le_refl _
  others := fun _ _ _ => rfl

theorem trans
    (hfirst : Keeps b h h')
    (hsecond : Keeps b h' h'') :
    Keeps b h h'' where
  grows := Nat.le_trans hfirst.grows hsecond.grows
  others := by
    intro b' hb' hne
    rw [hsecond.others b' (Nat.lt_of_lt_of_le hb' hfirst.grows) hne]
    exact hfirst.others b' hb' hne

end Keeps

theorem block_lt
    {h : Heap α} {b : Nat} {bytes : List α}
    (hblock : h.block b = some bytes) :
    b < h.blocks.length := by
  by_contra hlt
  rw [block, List.getElem?_eq_none (Nat.le_of_not_lt hlt)] at hblock
  cases hblock

theorem alloc_block
    (h : Heap α) (bytes : List α) :
    (h.alloc bytes).1.block h.blocks.length = some bytes := by
  simp [alloc, block]

theorem alloc_keeps
    (b : Nat) (h : Heap α) (bytes : List α) :
    Keeps b h (h.alloc bytes).1 where
  grows := by
    simp [alloc]
  others := by
    intro b' hb' _
    simp [alloc, block, List.getElem?_append_left hb']

theorem setBlock_block
    {h : Heap α} {b : Nat}
    (hb : b < h.blocks.length)
    (content : Option (List α)) :
    (h.setBlock b content).block b = content := by
  simp [setBlock, block, hb]

theorem setBlock_keeps
    (h : Heap α) (b : Nat) (content : Option (List α)) :
    Keeps b h (h.setBlock b content) where
  grows := by
    simp [setBlock]
  others := by
    intro b' _ hne
    simp [setBlock, block, List.getElem?_set_ne (Ne.symm hne)]

theorem free_eq
    {h : Heap α} {p : Ptr} {bytes : List α}
    (hoffset : p.offset = 0)
    (hblock : h.block p.block = some bytes) :
    ∃ h', h.free p = some h' ∧ Keeps p.block h h' := by
  refine ⟨h.setBlock p.block none, ?_, h.setBlock_keeps p.block none⟩
  simp [free, hoffset, hblock]

/-! ### Strings -/

variable [DecidableEq α] {nul : α}

/-- What a string looks like in its block. -/
theorem cstring_eq_some
    {h : Heap α} {p : Ptr} {s : List α} :
    h.cstring nul p = some s ↔
      ∃ before after,
        h.block p.block = some (before ++ (s ++ nul :: after)) ∧
          before.length = p.offset ∧ nul ∉ s := by
  constructor
  · intro hs
    simp only [cstring, Option.bind_eq_bind, Option.bind_eq_some_iff] at hs
    obtain ⟨bytes, hblock, hs⟩ := hs
    split at hs
    · rename_i hmem
      obtain ⟨after, hafter⟩ : ∃ after, bytes.drop p.offset = s ++ nul :: after := by
        have hsplit := List.takeWhile_append_dropWhile (p := fun c => decide (c ≠ nul))
          (l := bytes.drop p.offset)
        rw [Option.some.inj hs] at hsplit
        have hhead := List.head?_dropWhile_not (fun c => decide (c ≠ nul)) (bytes.drop p.offset)
        cases hrest : (bytes.drop p.offset).dropWhile (fun c => decide (c ≠ nul)) with
        | nil =>
            have hall := List.dropWhile_eq_nil_iff.mp hrest nul hmem
            simp at hall
        | cons c after =>
            rw [hrest] at hsplit hhead
            have hc : c = nul := by simpa using hhead
            exact ⟨after, by rw [← hsplit, hc]⟩
      have hlt : p.offset < bytes.length := by
        by_contra hle
        rw [List.drop_eq_nil_of_le (Nat.le_of_not_lt hle)] at hmem
        cases hmem
      refine ⟨bytes.take p.offset, after, ?_, ?_, ?_⟩
      · rw [← hafter, List.take_append_drop, hblock]
      · rw [List.length_take]
        omega
      · rw [← Option.some.inj hs]
        intro hnul
        simpa using List.mem_takeWhile_imp hnul
    · cases hs
  · rintro ⟨before, after, hblock, hoffset, hnul⟩
    have hdrop : (before ++ (s ++ nul :: after)).drop p.offset = s ++ nul :: after := by
      rw [← hoffset, List.drop_left]
    have htake : (s ++ nul :: after).takeWhile (fun c => decide (c ≠ nul)) = s := by
      rw [List.takeWhile_append_of_pos]
      · simp
      · intro c hc
        exact decide_eq_true (fun heq => hnul (heq ▸ hc))
    simp only [cstring, hblock, Option.bind_eq_bind, Option.bind_some, hdrop, htake]
    simp

theorem cstring_block
    {h : Heap α} {p : Ptr} {s : List α}
    (hs : h.cstring nul p = some s) :
    ∃ bytes, h.block p.block = some bytes := by
  obtain ⟨before, after, hblock, _⟩ := cstring_eq_some.mp hs
  exact ⟨_, hblock⟩

theorem Keeps.cstring
    {b : Nat} {h h' : Heap α} {p : Ptr} {s : List α}
    (hkeeps : Keeps b h h')
    (hne : p.block ≠ b)
    (hs : h.cstring nul p = some s) :
    h'.cstring nul p = some s := by
  rw [cstring_eq_some] at hs ⊢
  obtain ⟨before, after, hblock, hoffset, hnul⟩ := hs
  have hsame := hkeeps.others p.block (block_lt hblock) hne
  exact ⟨before, after, hsame.trans hblock, hoffset, hnul⟩

/-- What follows the first characters of a string is a string. -/
theorem cstring_add
    {h : Heap α} {p : Ptr} {s t : List α}
    (hs : h.cstring nul p = some (s ++ t)) :
    h.cstring nul (p.add s.length) = some t := by
  rw [cstring_eq_some] at hs ⊢
  obtain ⟨before, after, hblock, hoffset, hnul⟩ := hs
  refine ⟨before ++ s, after, ?_, ?_, ?_⟩
  · rw [Ptr.add_block, hblock]
    simp
  · simp [Ptr.add, hoffset]
  · exact fun hmem => hnul (List.mem_append_right s hmem)

theorem strdup_eq
    {h : Heap α} {p : Ptr} {s : List α}
    (hs : h.cstring nul p = some s) :
    ∃ h', h.strdup nul p = some (h', { block := h.blocks.length, offset := 0 }) ∧
      h'.block h.blocks.length = some (s ++ [nul]) ∧
      h'.cstring nul { block := h.blocks.length, offset := 0 } = some s ∧
      ∀ b, Keeps b h h' := by
  have hnul : nul ∉ s := by
    obtain ⟨_, _, _, _, hnul⟩ := cstring_eq_some.mp hs
    exact hnul
  have hblock := h.alloc_block (s ++ [nul])
  refine ⟨(h.alloc (s ++ [nul])).1, ?_, hblock, ?_, fun b => h.alloc_keeps b _⟩
  · simp [strdup, hs, alloc]
  · rw [cstring_eq_some]
    exact ⟨[], [], hblock, rfl, hnul⟩

/-- A terminator written over a character cuts the string in two. -/
theorem poke_cuts
    {h : Heap α} {p : Ptr} {s t : List α} {c : α}
    (hs : h.cstring nul p = some (s ++ c :: t)) :
    ∃ h', h.poke (p.add s.length) nul = some h' ∧
      h'.cstring nul p = some s ∧
      h'.cstring nul (p.add (s.length + 1)) = some t ∧
      Keeps p.block h h' := by
  obtain ⟨before, after, hblock, hoffset, hnul⟩ := cstring_eq_some.mp hs
  have hset : (before ++ (s ++ c :: t ++ nul :: after)).set (p.offset + s.length) nul =
      before ++ (s ++ nul :: (t ++ nul :: after)) := by
    rw [← hoffset]
    simp
  have hlt : p.offset + s.length < (before ++ (s ++ c :: t ++ nul :: after)).length := by
    simp only [List.length_append, List.length_cons]
    omega
  have hself := setBlock_block (block_lt hblock)
    (some (before ++ (s ++ nul :: (t ++ nul :: after))))
  refine ⟨h.setBlock p.block (some (before ++ (s ++ nul :: (t ++ nul :: after)))), ?_, ?_, ?_,
    h.setBlock_keeps p.block _⟩
  · simp only [poke, Ptr.add, hblock, Option.bind_eq_bind, Option.bind_some, if_pos hlt, hset]
  · rw [cstring_eq_some]
    exact ⟨before, t ++ nul :: after, hself, hoffset,
      fun hmem => hnul (List.mem_append_left _ hmem)⟩
  · rw [cstring_eq_some]
    refine ⟨before ++ (s ++ [nul]), after, ?_, ?_, ?_⟩
    · rw [Ptr.add_block, hself]
      simp
    · simp [Ptr.add, hoffset]
    · exact fun hmem => hnul (List.mem_append_right s (List.mem_cons_of_mem c hmem))

/-! ### Cutting tokens -/

/-- `strtok_r`: skip separators, end the token where the next one stands and keep
the pointer to what comes after it. -/
def strtokR (nul : α) (sep : α → Bool) (h : Heap α) (p : Ptr) :
    Option (Heap α × Option Ptr × Ptr) := do
  let text ← h.cstring nul p
  let start := p.add (text.takeWhile sep).length
  let rest := text.dropWhile sep
  if rest = [] then some (h, none, start)
  else
    let token := rest.takeWhile (fun c => !sep c)
    let stop := start.add token.length
    if token.length = rest.length then some (h, some start, stop)
    else do
      let h ← h.poke stop nul
      some (h, some start, stop.add 1)

/-- What a call leaves of a string of which `text` was left: nothing to cut, or its
first token cut off and the other tokens behind the pointer. -/
inductive Cuts (nul : α) (sep : α → Bool) (h : Heap α) (b : Nat) (text : List α) :
    Heap α × Option Ptr × Ptr → Prop where
  | done (saved : Ptr) (hnone : tokens sep text = []) :
      Cuts nul sep h b text (h, none, saved)
  | cut (h' : Heap α) (start saved : Ptr) (token rest : List α)
      (htokens : tokens sep text = token :: tokens sep rest)
      (hlength : rest.length < text.length)
      (htoken : h'.cstring nul start = some token)
      (hrest : h'.cstring nul saved = some rest)
      (hstart : start.block = b)
      (hsaved : saved.block = b)
      (hkeeps : Keeps b h h') :
      Cuts nul sep h b text (h', some start, saved)

theorem strtokR_cuts
    (sep : α → Bool)
    {h : Heap α} {p : Ptr} {text : List α}
    (htext : h.cstring nul p = some text) :
    ∃ out, h.strtokR nul sep p = some out ∧ Cuts nul sep h p.block text out := by
  have hskip := tokens_dropWhile sep text
  have hstart : h.cstring nul (p.add (text.takeWhile sep).length) =
      some (text.dropWhile sep) := by
    apply cstring_add
    rw [List.takeWhile_append_dropWhile, htext]
  have hle : (text.dropWhile sep).length ≤ text.length :=
    (List.dropWhile_sublist sep).length_le
  have hhead := List.head?_dropWhile_not sep text
  simp only [strtokR, htext, Option.bind_eq_bind, Option.bind_some]
  generalize text.dropWhile sep = left at *
  by_cases hleft : left = []
  · rw [if_pos hleft]
    refine ⟨_, rfl, .done _ ?_⟩
    rw [← hskip, hleft, tokens_nil]
  · rw [if_neg hleft]
    have htokens := tokens_eq_cons sep hleft (by
      intro c hc
      simpa [hc] using hhead)
    have hpieces : left.takeWhile (fun c => !sep c) ++ left.dropWhile (fun c => !sep c) = left :=
      List.takeWhile_append_dropWhile
    have hsep := List.head?_dropWhile_not (fun c => !sep c) left
    rw [hskip] at htokens
    generalize left.takeWhile (fun c => !sep c) = token at *
    have hpositive : 0 < left.length := List.length_pos_iff.mpr hleft
    cases hrest : left.dropWhile (fun c => !sep c) with
    | nil =>
        -- The token ends where the string does, and nothing is written.
        rw [hrest, List.append_nil] at hpieces
        rw [hrest] at htokens
        subst hpieces
        rw [if_pos rfl]
        refine ⟨_, rfl, .cut _ _ _ token [] htokens ?_ hstart ?_ rfl rfl .refl⟩
        · simp only [List.length_nil]
          omega
        · exact cstring_add (by rw [List.append_nil]; exact hstart)
    | cons c rest =>
        rw [hrest] at hpieces htokens hsep
        have hc : sep c = true := by simpa using hsep
        have hlength := congrArg List.length hpieces
        simp only [List.length_append, List.length_cons] at hlength
        rw [if_neg (by omega)]
        rw [← hpieces] at hstart
        obtain ⟨h', hpoke, htoken, hafter, hkeeps⟩ := poke_cuts hstart
        rw [tokens_cons_sep hc] at htokens
        rw [hpoke]
        exact ⟨_, rfl, .cut h' _ _ token rest htokens (by omega) htoken hafter rfl rfl hkeeps⟩

end Heap

/-- The heap and the pointer that `strtok` keeps between calls. -/
structure Store (α : Type) where
  heap : Heap α
  olds : Option Ptr
  deriving DecidableEq

/-- `strtok`: on a string, or on what the last call left of one. -/
def Store.strtok {α : Type} [DecidableEq α] (nul : α) (sep : α → Bool) (s : Option Ptr)
    (e : Store α) : Option (Store α × Option Ptr) := do
  let p ← s <|> e.olds
  let (heap, token, olds) ← e.heap.strtokR nul sep p
  some ({ heap, olds := some olds }, token)

theorem Store.strtok_eq
    {α : Type} [DecidableEq α] {nul : α} {sep : α → Bool}
    {s : Option Ptr} {e : Store α} {p : Ptr} {out : Heap α × Option Ptr × Ptr}
    (hp : (s <|> e.olds) = some p)
    (hout : e.heap.strtokR nul sep p = some out) :
    e.strtok nul sep s = some ({ heap := out.1, olds := some out.2.2 }, out.2.1) := by
  simp only [strtok, hp, Option.bind_eq_bind, Option.bind_some, hout]

end Lib
end SinIdeas
