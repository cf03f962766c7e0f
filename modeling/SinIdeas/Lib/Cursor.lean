import SinIdeas.Lib.LittleEndian

/-!
# Records copied field by field

A record is encoded by copying its fields one after another into a block of
memory, at an unsigned 32-bit offset, and decoded by copying them out of a
buffer at a signed 32-bit offset. Both are programs over bytes: `Block.copyAll`
writes, a `Decoder` reads, and each leaves no result as soon as it touches a byte
outside its memory.

`Decodes` says what a decoder does on a piece of the buffer wherever the piece
stands and whatever surrounds it, with a rule for each way of building a decoder;
`Stuck` says that it leaves the buffer.
-/

namespace SinIdeas
namespace Lib

/-- What a signed 32-bit variable holds after a number is stored in it. -/
def wrap32 (z : Int) : Int :=
  Int.bmod z (2 ^ 32)

theorem wrap32_of_lt
    {n : Nat}
    (h : n < 2 ^ 31) :
    wrap32 n = n := by
  unfold wrap32
  apply Int.bmod_eq_of_le <;> omega

theorem wrap32_neg
    {n : Nat}
    (hlow : 2 ^ 31 ≤ n) (hhigh : n < 2 ^ 32) :
    wrap32 n < 0 := by
  have hmod : (n : Int) % ((2 ^ 32 : Nat) : Int) = n := by
    apply Int.emod_eq_of_lt <;> omega
  unfold wrap32
  rw [Int.bmod_neg] <;> omega

/-- A count that a header of eight bytes takes past the largest `int`. -/
theorem wrap32_header
    {n : Nat}
    (hlow : 2 ^ 31 ≤ 8 + n) (hhigh : n < 2 ^ 32) :
    (wrap32 ((8 + n : Nat) : Int)).toNat < 8 := by
  simp only [wrap32, Int.bmod]
  split_ifs <;> omega

/-! ## Reading -/

/-- The offset of a decoder and the positions it has copied, in order. -/
structure Cursor where
  offset : Int
  visited : List Nat

/-- A program that copies values out of a buffer. -/
def Decoder (α : Type) : Type :=
  List UInt8 → Cursor → Option (α × Cursor)

namespace Decoder

variable {α β : Type}

instance : Monad Decoder where
  pure v := fun _ r => some (v, r)
  bind d f := fun mem r => (d mem r).bind (fun out => f out.1 mem out.2)

/-- A read that is undefined. -/
def fail : Decoder α :=
  fun _ _ => none

/-- A value that may not exist. -/
def ofOption (v : Option α) : Decoder α :=
  fun _ r => v.map (fun a => (a, r))

/-- Copy `n` bytes at the offset and move past them. -/
def bytes (n : Nat) : Decoder (List UInt8) := fun mem r =>
  if 0 ≤ r.offset ∧ r.offset.toNat + n ≤ mem.length then
    some ((mem.drop r.offset.toNat).take n,
      { offset := wrap32 (r.offset + n)
        visited := r.visited ++ List.range' r.offset.toNat n })
  else
    none

/-- Copy a 32-bit word and move past it. -/
def word : Decoder UInt32 := do
  let b ← bytes 4
  pure (UInt32.ofNat (leValue b))

/-- Copy the string that starts at the offset and move past the byte 0 that
ends it. -/
def cstring : Decoder (List UInt8) := fun mem r =>
  let s := (mem.drop r.offset.toNat).takeWhile (fun b => b != 0)
  (bytes (s.length + 1) mem r).map (fun out => (s, out.2))

/-- The offset itself. -/
def position : Decoder Int :=
  fun _ r => some (r.offset, r)

/-- Read without moving. -/
def peek (d : Decoder α) : Decoder α := fun mem r =>
  (d mem r).map (fun out => (out.1, { out.2 with offset := r.offset }))

/-- Read `n` values one after another. -/
def times : Nat → Decoder α → Decoder (List α)
  | 0, _ => pure []
  | n + 1, d => do
      let v ← d
      let vs ← times n d
      pure (v :: vs)

/-- Read from the start of a buffer: the value and the positions copied. -/
def run (d : Decoder α) (mem : List UInt8) : Option (α × List Nat) :=
  (d mem { offset := 0, visited := [] }).map (fun out => (out.1, out.2.visited))

theorem bind_apply
    (d : Decoder α) (f : α → Decoder β) (mem : List UInt8) (r : Cursor) :
    (d >>= f) mem r = (d mem r).bind (fun out => f out.1 mem out.2) := by
  rfl

theorem pure_apply
    (v : α) (mem : List UInt8) (r : Cursor) :
    (pure v : Decoder α) mem r = some (v, r) := by
  rfl

end Decoder

/-- The decoder turns the bytes `l` at position `start` into `v`: it copies each
of them once, in order, and no other, whatever stands before and after. -/
def Decodes {α : Type} (d : Decoder α) (start : Nat) (l : List UInt8) (v : α) : Prop :=
  ∀ pre post visited, pre.length = start →
    d (pre ++ (l ++ post)) { offset := wrap32 start, visited } =
      some (v, { offset := wrap32 ((start + l.length : Nat) : Int)
                 visited := visited ++ List.range' start l.length })

/-- The decoder leaves the buffer that ends with the bytes `l` at position
`start`. -/
def Stuck {α : Type} (d : Decoder α) (start : Nat) (l : List UInt8) : Prop :=
  ∀ pre visited, pre.length = start →
    d (pre ++ l) { offset := wrap32 start, visited } = none

section Rules

variable {α β : Type}

theorem Decodes.pure
    (v : α) (start : Nat) :
    Decodes (Pure.pure v) start [] v := by
  intro pre post visited _
  simp [Decoder.pure_apply]

theorem Decodes.bind
    {d : Decoder α} {f : α → Decoder β} {start : Nat} {l m : List UInt8} {v : α} {w : β}
    (hd : Decodes d start l v)
    (hf : Decodes (f v) (start + l.length) m w) :
    Decodes (d >>= f) start (l ++ m) w := by
  intro pre post visited hpre
  have hfirst := hd pre (m ++ post) visited hpre
  have hsecond := hf (pre ++ l) post (visited ++ List.range' start l.length) (by simp [hpre])
  rw [List.append_assoc] at hsecond
  rw [Decoder.bind_apply, List.append_assoc, hfirst, Option.bind_some, hsecond]
  have hrange :
      List.range' start l.length ++ List.range' (start + l.length) m.length =
        List.range' start (l.length + m.length) := by
    rw [List.range'_append_1]
  rw [List.append_assoc, hrange, List.length_append, Nat.add_assoc]

theorem Decodes.ofOption
    {o : Option α} {v : α}
    (h : o = some v) (start : Nat) :
    Decodes (Decoder.ofOption o) start [] v := by
  intro pre post visited _
  simp [Decoder.ofOption, h]

theorem Decodes.position_bind
    {f : Int → Decoder β} {start : Nat} {m : List UInt8} {w : β}
    (hstart : start < 2 ^ 31)
    (hf : Decodes (f start) start m w) :
    Decodes (Decoder.position >>= f) start m w := by
  intro pre post visited hpre
  have hnext := hf pre post visited hpre
  rw [wrap32_of_lt hstart] at hnext ⊢
  exact hnext

theorem Decodes.bytes
    {start : Nat}
    (hstart : start < 2 ^ 31) (l : List UInt8) :
    Decodes (Decoder.bytes l.length) start l l := by
  intro pre post visited hpre
  subst hpre
  rw [wrap32_of_lt hstart]
  simp only [Decoder.bytes, Int.toNat_natCast, List.length_append]
  rw [if_pos ⟨by omega, by omega⟩]
  simp [Nat.cast_add]

theorem Decodes.word
    {start : Nat}
    (hstart : start < 2 ^ 31) (v : UInt32) :
    Decodes Decoder.word start (encode32 v) v := by
  have hvalue : UInt32.ofNat (leValue (encode32 v)) = v := by
    have h := decode32_encode32 v []
    simpa [decode32, List.take_of_length_le] using h
  have hbytes : Decodes (Decoder.bytes 4) start (encode32 v) (encode32 v) := by
    have h := Decodes.bytes hstart (encode32 v)
    rwa [length_encode32] at h
  have hpure := Decodes.pure (UInt32.ofNat (leValue (encode32 v))) (start + (encode32 v).length)
  have hboth := Decodes.bind (f := fun b => Pure.pure (UInt32.ofNat (leValue b))) hbytes hpure
  rw [List.append_nil, hvalue] at hboth
  exact hboth

theorem Decodes.cstring
    {start : Nat} {s : List UInt8}
    (hstart : start < 2 ^ 31) (hs : (0 : UInt8) ∉ s) :
    Decodes Decoder.cstring start (s ++ [0]) s := by
  intro pre post visited hpre
  have hbytes := Decodes.bytes hstart (s ++ [0]) pre post visited hpre
  have hwalk :
      ((pre ++ (s ++ [0] ++ post)).drop (wrap32 start).toNat).takeWhile (fun b => b != 0) = s := by
    rw [wrap32_of_lt hstart, Int.toNat_natCast, ← hpre, List.drop_left,
      List.append_assoc, List.takeWhile_append_of_pos]
    · simp
    · intro b hb
      simpa using fun h : b = 0 => hs (h ▸ hb)
  rw [List.length_append, List.length_singleton] at hbytes
  simp only [Decoder.cstring, hwalk, hbytes, Option.map_some, List.length_append,
    List.length_singleton]

theorem Decodes.word_bind
    {f : UInt32 → Decoder β} {start : Nat} {m : List UInt8} {v : UInt32} {w : β}
    (hstart : start < 2 ^ 31)
    (hf : Decodes (f v) (start + 4) m w) :
    Decodes (Decoder.word >>= f) start (encode32 v ++ m) w := by
  apply (Decodes.word hstart v).bind
  rwa [length_encode32]

theorem Decodes.bytes_bind
    {f : List UInt8 → Decoder β} {start n : Nat} {l m : List UInt8} {w : β}
    (hstart : start < 2 ^ 31) (hn : l.length = n)
    (hf : Decodes (f l) (start + n) m w) :
    Decodes (Decoder.bytes n >>= f) start (l ++ m) w := by
  subst hn
  exact (Decodes.bytes hstart l).bind hf

theorem Decodes.ofOption_bind
    {f : α → Decoder β} {o : Option α} {start : Nat} {m : List UInt8} {v : α} {w : β}
    (ho : o = some v)
    (hf : Decodes (f v) start m w) :
    Decodes (Decoder.ofOption o >>= f) start m w :=
  (Decodes.ofOption ho start).bind hf

/-- Reading the values of a list one after another. -/
theorem Decodes.times
    {d : Decoder α} {enc : α → List UInt8}
    (vs : List α) (start : Nat)
    (hd : ∀ v ∈ vs, ∀ s < 2 ^ 31, Decodes d s (enc v) v)
    (hstarts : ∀ a v b, vs = a ++ v :: b → start + (a.flatMap enc).length < 2 ^ 31) :
    Decodes (Decoder.times vs.length d) start (vs.flatMap enc) vs := by
  induction vs generalizing start with
  | nil =>
      exact Decodes.pure [] start
  | cons v vs ih =>
      have hfirst : Decodes d start (enc v) v := by
        apply hd v (by simp)
        simpa using hstarts [] v vs rfl
      have hrest : Decodes (Decoder.times vs.length d) (start + (enc v).length) (vs.flatMap enc) vs := by
        apply ih
        · intro w hw
          exact hd w (by simp [hw])
        · intro a w b hsplit
          have h := hstarts (v :: a) w b (by simp [hsplit])
          rw [List.flatMap_cons, List.length_append] at h
          omega
      have hcons := hrest.bind
        (f := fun ws => Pure.pure (v :: ws)) (Decodes.pure (v :: vs) _)
      rw [List.append_nil] at hcons
      exact hfirst.bind hcons

/-- What a decoder does on a whole buffer. -/
theorem Decodes.run
    {d : Decoder α} {l : List UInt8} {v : α}
    (h : Decodes d 0 l v) (post : List UInt8) :
    d.run (l ++ post) = some (v, List.range l.length) := by
  have hrun := h [] post [] rfl
  simp only [List.nil_append] at hrun
  have hzero : wrap32 ((0 : Nat) : Int) = 0 := wrap32_of_lt (by decide)
  rw [hzero] at hrun
  simp [Decoder.run, hrun, List.range_eq_range']

theorem Stuck.bytes
    {start : Nat}
    (hlow : 2 ^ 31 ≤ start) (hhigh : start < 2 ^ 32) (n : Nat) (l : List UInt8) :
    Stuck (Decoder.bytes n) start l := by
  intro pre visited _
  have hneg := wrap32_neg hlow hhigh
  simp only [Decoder.bytes]
  rw [if_neg]
  omega

theorem Stuck.bind_left
    {d : Decoder α} {start : Nat} {l : List UInt8}
    (hd : Stuck d start l) (f : α → Decoder β) :
    Stuck (d >>= f) start l := by
  intro pre visited hpre
  rw [Decoder.bind_apply, hd pre visited hpre, Option.bind_none]

theorem Stuck.bind_right
    {d : Decoder α} {f : α → Decoder β} {start : Nat} {l m : List UInt8} {v : α}
    (hd : Decodes d start l v)
    (hf : Stuck (f v) (start + l.length) m) :
    Stuck (d >>= f) start (l ++ m) := by
  intro pre visited hpre
  have hsecond := hf (pre ++ l) (visited ++ List.range' start l.length) (by simp [hpre])
  rw [List.append_assoc] at hsecond
  rw [Decoder.bind_apply, hd pre m visited hpre, Option.bind_some]
  exact hsecond

theorem Stuck.word
    {start : Nat}
    (hlow : 2 ^ 31 ≤ start) (hhigh : start < 2 ^ 32) (l : List UInt8) :
    Stuck Decoder.word start l :=
  (Stuck.bytes hlow hhigh 4 l).bind_left _

theorem Stuck.cstring
    {start : Nat}
    (hlow : 2 ^ 31 ≤ start) (hhigh : start < 2 ^ 32) (l : List UInt8) :
    Stuck Decoder.cstring start l := by
  intro pre visited hpre
  simp only [Decoder.cstring]
  rw [Stuck.bytes hlow hhigh _ l pre visited hpre]
  rfl

/-- A read past the end of the buffer. -/
theorem Stuck.bytes_short
    {start n : Nat} {l : List UInt8}
    (hstart : start < 2 ^ 31) (hshort : l.length < n) :
    Stuck (Decoder.bytes n) start l := by
  intro pre visited hpre
  rw [wrap32_of_lt hstart]
  simp only [Decoder.bytes, Int.toNat_natCast, List.length_append]
  rw [if_neg]
  omega

theorem Stuck.word_short
    {start : Nat} {l : List UInt8}
    (hstart : start < 2 ^ 31) (hshort : l.length < 4) :
    Stuck Decoder.word start l :=
  (Stuck.bytes_short hstart hshort).bind_left _

theorem Stuck.word_bind
    {f : UInt32 → Decoder β} {start : Nat} {m : List UInt8} {v : UInt32}
    (hstart : start < 2 ^ 31)
    (hf : Stuck (f v) (start + 4) m) :
    Stuck (Decoder.word >>= f) start (encode32 v ++ m) := by
  apply Stuck.bind_right (Decodes.word hstart v)
  rwa [length_encode32]

theorem Stuck.bytes_bind
    {f : List UInt8 → Decoder β} {start n : Nat} {l m : List UInt8}
    (hstart : start < 2 ^ 31) (hn : l.length = n)
    (hf : Stuck (f l) (start + n) m) :
    Stuck (Decoder.bytes n >>= f) start (l ++ m) := by
  subst hn
  exact Stuck.bind_right (Decodes.bytes hstart l) hf

theorem Stuck.ofOption_bind
    {f : α → Decoder β} {o : Option α} {start : Nat} {m : List UInt8} {v : α}
    (ho : o = some v)
    (hf : Stuck (f v) start m) :
    Stuck (Decoder.ofOption o >>= f) start m :=
  Stuck.bind_right (Decodes.ofOption ho start) hf

/-- One of the values of a list starts past the signed offsets. -/
theorem Stuck.times
    {d : Decoder α} {enc : α → List UInt8}
    (vs : List α) (start : Nat)
    (hd : ∀ v ∈ vs, ∀ s < 2 ^ 31, Decodes d s (enc v) v)
    (hstuck : ∀ s l, 2 ^ 31 ≤ s → s < 2 ^ 32 → Stuck d s l)
    (htotal : start + (vs.flatMap enc).length < 2 ^ 32)
    (hstarts : ¬ ∀ a v b, vs = a ++ v :: b → start + (a.flatMap enc).length < 2 ^ 31) :
    Stuck (Decoder.times vs.length d) start (vs.flatMap enc) := by
  induction vs generalizing start with
  | nil =>
      exact absurd (by simp) hstarts
  | cons v vs ih =>
      rw [List.flatMap_cons, List.length_append] at htotal
      by_cases hstart : start < 2 ^ 31
      · refine Stuck.bind_right (hd v (by simp) start hstart) (Stuck.bind_left ?_ _)
        apply ih
        · intro w hw
          exact hd w (by simp [hw])
        · omega
        · intro hrest
          apply hstarts
          intro a w b hsplit
          cases a with
          | nil =>
              simpa using hstart
          | cons x a =>
              obtain ⟨rfl, hvs⟩ := List.cons_eq_cons.mp hsplit
              have h := hrest a w b hvs
              rw [List.flatMap_cons, List.length_append]
              omega
      · exact (hstuck start _ (by omega) (by omega)).bind_left _

theorem Stuck.run
    {d : Decoder α} {l : List UInt8}
    (h : Stuck d 0 l) :
    d.run l = none := by
  have hrun := h [] [] rfl
  have hzero : wrap32 ((0 : Nat) : Int) = 0 := wrap32_of_lt (by decide)
  rw [hzero] at hrun
  simp only [List.nil_append] at hrun
  simp [Decoder.run, hrun]

/-- All that a read of bytes can do. -/
theorem Decoder.bytes_eq_some
    {n : Nat} {mem b : List UInt8} {r r' : Cursor}
    (h : Decoder.bytes n mem r = some (b, r')) :
    0 ≤ r.offset ∧ r.offset.toNat + n ≤ mem.length ∧
      b = (mem.drop r.offset.toNat).take n ∧
      r' = { offset := wrap32 (r.offset + n)
             visited := r.visited ++ List.range' r.offset.toNat n } := by
  simp only [Decoder.bytes] at h
  split at h
  · rename_i hinside
    cases h
    exact ⟨hinside.1, hinside.2, rfl, rfl⟩
  · cases h

/-- The bytes of a word are read at once. -/
theorem Decoder.word_eq_some
    {mem : List UInt8} {r r' : Cursor} {v : UInt32}
    (h : Decoder.word mem r = some (v, r')) :
    0 ≤ r.offset ∧ r.offset.toNat + 4 ≤ mem.length ∧
      encode32 v = (mem.drop r.offset.toNat).take 4 ∧
      r' = { offset := wrap32 (r.offset + 4)
             visited := r.visited ++ List.range' r.offset.toNat 4 } := by
  obtain ⟨⟨b, r₁⟩, hbytes, hv⟩ := Option.bind_eq_some_iff.mp h
  cases hv
  obtain ⟨hpos, hinside, hb, hr⟩ := Decoder.bytes_eq_some hbytes
  have hlength : ((mem.drop r.offset.toNat).take 4).length = 4 := by
    rw [List.length_take, List.length_drop]
    omega
  refine ⟨hpos, hinside, ?_, hr⟩
  rw [hb]
  exact encode32_leValue hlength

theorem Decoder.bytes_offset
    {n : Nat} {mem b : List UInt8} {r r' : Cursor}
    (h : Decoder.bytes n mem r = some (b, r')) :
    r'.offset = wrap32 (r.offset + n) := by
  obtain ⟨_, _, _, rfl⟩ := Decoder.bytes_eq_some h
  rfl

theorem Decoder.word_offset
    {mem : List UInt8} {r r' : Cursor} {v : UInt32}
    (h : Decoder.word mem r = some (v, r')) :
    r'.offset = wrap32 (r.offset + 4) := by
  obtain ⟨_, _, _, rfl⟩ := Decoder.word_eq_some h
  rfl

/-- How many positions a read of a word visits. -/
theorem Decoder.word_visited
    {mem : List UInt8} {r r' : Cursor} {v : UInt32}
    (h : Decoder.word mem r = some (v, r')) :
    r'.visited.length = r.visited.length + 4 := by
  obtain ⟨_, _, _, rfl⟩ := Decoder.word_eq_some h
  rw [List.length_append, List.length_range']

theorem Decoder.bytes_visited
    {n : Nat} {mem b : List UInt8} {r r' : Cursor}
    (h : Decoder.bytes n mem r = some (b, r')) :
    r'.visited.length = r.visited.length + n := by
  obtain ⟨_, _, _, rfl⟩ := Decoder.bytes_eq_some h
  rw [List.length_append, List.length_range']

theorem Decoder.bytes_length
    {n : Nat} {mem b : List UInt8} {r r' : Cursor}
    (h : Decoder.bytes n mem r = some (b, r')) :
    b.length = n := by
  obtain ⟨_, hinside, rfl, _⟩ := Decoder.bytes_eq_some h
  rw [List.length_take, List.length_drop]
  omega

/-- In the buffer `mem` the decoder turns what starts at `start` into `v` and stops at
`stop`. Other than with `Decodes`, it may look at bytes that it does not move past. -/
def Reads (d : Decoder α) (mem : List UInt8) (start : Nat) (v : α) (stop : Nat) : Prop :=
  ∀ visited, ∃ visited', d mem { offset := wrap32 start, visited } =
    some (v, { offset := wrap32 stop, visited := visited' })

theorem Reads.pure
    (v : α) (mem : List UInt8) (start : Nat) :
    Reads (Pure.pure v) mem start v start :=
  fun visited => ⟨visited, rfl⟩

theorem Reads.bind
    {d : Decoder α} {f : α → Decoder β} {mem : List UInt8} {start mid stop : Nat} {v : α} {w : β}
    (hd : Reads d mem start v mid)
    (hf : Reads (f v) mem mid w stop) :
    Reads (d >>= f) mem start w stop := by
  intro visited
  obtain ⟨visited₁, hfirst⟩ := hd visited
  obtain ⟨visited₂, hsecond⟩ := hf visited₁
  refine ⟨visited₂, ?_⟩
  rw [Decoder.bind_apply, hfirst, Option.bind_some]
  exact hsecond

theorem Reads.ofOption_bind
    {f : α → Decoder β} {o : Option α} {mem : List UInt8} {start stop : Nat} {v : α} {w : β}
    (ho : o = some v)
    (hf : Reads (f v) mem start w stop) :
    Reads (Decoder.ofOption o >>= f) mem start w stop := by
  subst ho
  exact Reads.bind (fun visited => ⟨visited, rfl⟩) hf

/-- What a decoder does to a piece of a buffer it does in the whole buffer. -/
theorem Decodes.reads
    {d : Decoder α} {mem l post : List UInt8} {start : Nat} {v : α}
    (hd : Decodes d start l v)
    (hstart : start ≤ mem.length)
    (hdrop : mem.drop start = l ++ post) :
    Reads d mem start v (start + l.length) := by
  intro visited
  have hpre : (mem.take start).length = start := by
    rw [List.length_take, Nat.min_eq_left hstart]
  have hread := hd (mem.take start) post visited hpre
  rw [← hdrop, List.take_append_drop] at hread
  exact ⟨_, hread⟩

theorem Reads.peek
    {d : Decoder α} {mem : List UInt8} {start stop : Nat} {v : α}
    (hd : Reads d mem start v stop) :
    Reads (Decoder.peek d) mem start v start := by
  intro visited
  obtain ⟨visited', h⟩ := hd visited
  exact ⟨visited', by rw [Decoder.peek, h, Option.map_some]⟩

theorem Reads.word
    {mem post : List UInt8} {start : Nat} {v : UInt32}
    (hstart : start < 2 ^ 31)
    (hdrop : mem.drop start = encode32 v ++ post) :
    Reads Decoder.word mem start v (start + 4) := by
  have hle : start ≤ mem.length := by
    by_contra hlong
    rw [List.drop_eq_nil_of_le (by omega)] at hdrop
    have hlength := congrArg List.length hdrop
    rw [List.length_append, length_encode32, List.length_nil] at hlength
    omega
  have hreads := (Decodes.word hstart v).reads hle hdrop
  rwa [length_encode32] at hreads

theorem Reads.bytes
    {mem l post : List UInt8} {start n : Nat}
    (hstart : start < 2 ^ 31)
    (hn : l.length = n)
    (hle : start ≤ mem.length)
    (hdrop : mem.drop start = l ++ post) :
    Reads (Decoder.bytes n) mem start l (start + n) := by
  subst hn
  exact (Decodes.bytes hstart l).reads hle hdrop

theorem Reads.run
    {d : Decoder α} {mem : List UInt8} {v : α} {stop : Nat}
    (h : Reads d mem 0 v stop) :
    ∃ visited, d.run mem = some (v, visited) := by
  have hzero : wrap32 ((0 : Nat) : Int) = 0 := wrap32_of_lt (by decide)
  obtain ⟨visited, hrun⟩ := h []
  rw [hzero] at hrun
  exact ⟨visited, by rw [Decoder.run, hrun, Option.map_some]⟩

/-- A read that does not move looks at what the decoder reads. -/
theorem Decoder.peek_eq_some
    {d : Decoder α} {mem : List UInt8} {r r' : Cursor} {v : α}
    (h : Decoder.peek d mem r = some (v, r')) :
    ∃ r₁, d mem r = some (v, r₁) ∧ r'.offset = r.offset := by
  obtain ⟨⟨w, r₁⟩, hd, hout⟩ := Option.map_eq_some_iff.mp h
  cases hout
  exact ⟨r₁, hd, rfl⟩

/-- Giving the value of a decoder another form. -/
theorem Decoder.run_map
    (d : Decoder α) (g : α → β) (mem : List UInt8) :
    Decoder.run (d >>= fun v => Pure.pure (g v)) mem =
      (d.run mem).map (fun out => (g out.1, out.2)) := by
  simp only [Decoder.run, Decoder.bind_apply, Decoder.pure_apply]
  cases d mem { offset := 0, visited := [] } <;> rfl

end Rules

/-! ## Writing -/

/-- A block of memory while it is filled: its size, the offset of the next copy,
the bytes already there and how many bytes have been copied. -/
structure Block where
  capacity : Nat
  offset : UInt32
  content : List UInt8
  written : Nat

namespace Block

/-- A block nobody has written to. -/
def fresh (capacity : Nat) : Block :=
  { capacity, offset := 0, content := [], written := 0 }

/-- Copy bytes at the offset and move past them. -/
def copy (b : Block) (l : List UInt8) : Option Block :=
  let o := b.offset.toNat
  if o + l.length ≤ b.capacity then
    some { b with
      offset := b.offset + UInt32.ofNat l.length
      content := b.content.take o ++ l ++ b.content.drop (o + l.length)
      written := b.written + l.length }
  else
    none

/-- Copy the fields of a record one after another. -/
def copyAll (b : Block) : List (List UInt8) → Option Block
  | [] => some b
  | l :: fields => do
      let b ← b.copy l
      b.copyAll fields

theorem written_copyAll
    {b b' : Block} (fields : List (List UInt8))
    (h : b.copyAll fields = some b') :
    b'.written = b.written + fields.flatten.length := by
  induction fields generalizing b with
  | nil =>
      obtain rfl : b = b' := by simpa [copyAll] using h
      simp
  | cons l fields ih =>
      obtain ⟨mid, hmid, hrest⟩ := Option.bind_eq_some_iff.mp h
      have hcopied : mid.written = b.written + l.length := by
        simp only [copy] at hmid
        split at hmid
        · obtain rfl := Option.some.inj hmid
          rfl
        · cases hmid
      rw [ih hrest, hcopied, List.flatten_cons, List.length_append]
      omega

/-- Fields that fit are laid out one after another. -/
theorem copyAll_append
    (b : Block) (fields : List (List UInt8))
    (hoffset : b.offset.toNat = b.content.length)
    (hwritten : b.written = b.content.length)
    (hfits : b.content.length + fields.flatten.length ≤ b.capacity)
    (hsmall : b.content.length + fields.flatten.length < 2 ^ 32) :
    ∃ b', b.copyAll fields = some b' ∧
      b'.content = b.content ++ fields.flatten ∧
      b'.written = b.content.length + fields.flatten.length := by
  induction fields generalizing b with
  | nil =>
      exact ⟨b, rfl, by simp, by simp [hwritten]⟩
  | cons l fields ih =>
      rw [List.flatten_cons, List.length_append] at hfits hsmall
      have hdrop : b.content.drop (b.content.length + l.length) = [] :=
        List.drop_eq_nil_of_le (by omega)
      have hcopy : b.copy l = some
          { b with
            offset := b.offset + UInt32.ofNat l.length
            content := b.content ++ l
            written := b.written + l.length } := by
        simp only [copy, hoffset]
        rw [if_pos (by omega), List.take_length, hdrop, List.append_nil]
      have hnext : (b.offset + UInt32.ofNat l.length).toNat = (b.content ++ l).length := by
        have hl : (UInt32.ofNat l.length).toNat = l.length := by
          simp only [UInt32.toNat_ofNat']
          omega
        rw [UInt32.toNat_add, hl, hoffset, List.length_append]
        omega
      obtain ⟨b', hrest, hcontent, hcount⟩ := ih
        { b with
          offset := b.offset + UInt32.ofNat l.length
          content := b.content ++ l
          written := b.written + l.length }
        hnext
        (by simp [hwritten])
        (by simp only [List.length_append]; omega)
        (by simp only [List.length_append]; omega)
      refine ⟨b', ?_, ?_, ?_⟩
      · rw [copyAll, hcopy]
        exact hrest
      · rw [hcontent, List.flatten_cons, List.append_assoc]
      · rw [hcount, List.flatten_cons]
        simp only [List.length_append]
        omega

/-- Fields that do not fit are not copied, whatever comes after them. -/
theorem copyAll_none
    (b : Block) (fields rest : List (List UInt8))
    (hoffset : b.offset.toNat ≤ b.capacity)
    (hcapacity : b.capacity < b.offset.toNat + fields.flatten.length)
    (hsmall : b.offset.toNat + fields.flatten.length < 2 ^ 32) :
    b.copyAll (fields ++ rest) = none := by
  induction fields generalizing b with
  | nil =>
      rw [List.flatten_nil, List.length_nil] at hcapacity
      omega
  | cons l fields ih =>
      rw [List.flatten_cons, List.length_append] at hcapacity hsmall
      by_cases hfits : b.offset.toNat + l.length ≤ b.capacity
      · have hnext : (b.offset + UInt32.ofNat l.length).toNat = b.offset.toNat + l.length := by
          rw [UInt32.toNat_add, UInt32.toNat_ofNat']
          omega
        simp only [List.cons_append, copyAll, copy, if_pos hfits, Option.bind_eq_bind,
          Option.bind_some]
        apply ih
        · exact hnext.trans_le hfits
        · simp only [hnext]
          omega
        · simp only [hnext]
          omega
      · simp only [List.cons_append, copyAll, copy, if_neg hfits, Option.bind_eq_bind,
          Option.bind_none]

theorem copyAll_fresh_none
    (capacity : Nat) (fields rest : List (List UInt8))
    (hcapacity : capacity < fields.flatten.length)
    (hsmall : fields.flatten.length < 2 ^ 32) :
    (fresh capacity).copyAll (fields ++ rest) = none := by
  have hzero : (fresh capacity).offset.toNat = 0 := rfl
  apply copyAll_none
  · rw [hzero]
    exact Nat.zero_le _
  · rw [hzero, Nat.zero_add]
    exact hcapacity
  · rw [hzero, Nat.zero_add]
    exact hsmall

/-- Filling a fresh block of the right size. -/
theorem copyAll_fresh
    (capacity : Nat) (fields : List (List UInt8))
    (hfits : fields.flatten.length ≤ capacity)
    (hsmall : fields.flatten.length < 2 ^ 32) :
    ∃ b, (fresh capacity).copyAll fields = some b ∧
      b.content = fields.flatten ∧
      b.written = fields.flatten.length := by
  obtain ⟨b, hb, hcontent, hwritten⟩ :=
    copyAll_append (fresh capacity) fields rfl rfl (by simpa [fresh] using hfits)
      (by simpa [fresh] using hsmall)
  exact ⟨b, hb, by simpa [fresh] using hcontent, by simpa [fresh] using hwritten⟩

end Block

end Lib
end SinIdeas
