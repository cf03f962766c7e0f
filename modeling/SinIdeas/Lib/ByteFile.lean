import SinIdeas.Lib.LittleEndian

/-!
# Files of bytes

A file is a list of bytes that reads as zero beyond its end. A write at an offset
replaces bytes and makes the file longer where it ends after it. What a byte is
after a list of writes depends on the last write that covers it
(`byteAt_writeAll`), so writes to disjoint regions are read back one by one.
-/

namespace SinIdeas
namespace Lib

/-- The byte at an offset. -/
def byteAt (f : List UInt8) (i : Nat) : UInt8 := f.getD i 0

/-- A write: `fseek` to the offset and `fwrite` of the bytes. -/
structure Write where
  offset : Nat
  bytes : List UInt8
  deriving DecidableEq

/-- The write changes the byte `i`. -/
def Write.Covers (w : Write) (i : Nat) : Prop := w.offset ≤ i ∧ i < w.offset + w.bytes.length

instance (w : Write) (i : Nat) : Decidable (w.Covers i) :=
  inferInstanceAs (Decidable (_ ∧ _))

/-- The file after a write; a gap before it is filled with zeros. -/
def writeAt (f : List UInt8) (w : Write) : List UInt8 :=
  (List.range (max f.length (w.offset + w.bytes.length))).map
    (fun i => if w.Covers i then w.bytes.getD (i - w.offset) 0 else byteAt f i)

/-- The file after the writes, in order. -/
def writeAll (f : List UInt8) (ws : List Write) : List UInt8 := ws.foldl writeAt f

/-- The `n` bytes from an offset. -/
def readAt (f : List UInt8) (offset n : Nat) : List UInt8 :=
  (List.range n).map (fun i => byteAt f (offset + i))

/-- The word at an offset. -/
def wordAt (f : List UInt8) (offset : Nat) : Nat := leValue (readAt f offset 4)

section Writes

variable {f : List UInt8} {w : Write} {ws : List Write} {i n offset : Nat}

theorem byteAt_of_length_le
    (h : f.length ≤ i) :
    byteAt f i = 0 := by
  simp [byteAt, List.getD_eq_getElem?_getD, List.getElem?_eq_none h]

/-- The byte of a file after a write. -/
theorem byteAt_writeAt :
    byteAt (writeAt f w) i =
      if w.Covers i then w.bytes.getD (i - w.offset) 0 else byteAt f i := by
  by_cases hi : i < max f.length (w.offset + w.bytes.length)
  · simp [byteAt, writeAt, List.getD_eq_getElem?_getD, hi]
  · have hcovers : ¬ w.Covers i := by
      rintro ⟨_, hlt⟩
      omega
    rw [if_neg hcovers, byteAt_of_length_le, byteAt_of_length_le]
    · omega
    · simp only [writeAt, List.length_map, List.length_range]
      omega

@[simp] theorem writeAll_nil : writeAll f [] = f := rfl

theorem writeAll_append
    {vs : List Write} :
    writeAll f (vs ++ ws) = writeAll (writeAll f vs) ws :=
  List.foldl_append

/-- A byte that no write covers stays. -/
theorem byteAt_writeAll_of_not_covers
    (h : ∀ w ∈ ws, ¬ w.Covers i) :
    byteAt (writeAll f ws) i = byteAt f i := by
  induction ws generalizing f with
  | nil =>
      rfl
  | cons w ws ih =>
      have hrest := ih (f := writeAt f w) (fun v hv => h v (List.mem_cons_of_mem _ hv))
      have hfirst : ¬ w.Covers i := h w List.mem_cons_self
      rw [byteAt_writeAt, if_neg hfirst] at hrest
      exact hrest

/-- A byte is what the last write that covers it wrote. -/
theorem byteAt_writeAll
    {vs : List Write}
    (hcovers : w.Covers i)
    (hlast : ∀ v ∈ ws, ¬ v.Covers i) :
    byteAt (writeAll f (vs ++ w :: ws)) i = w.bytes.getD (i - w.offset) 0 := by
  have hsplit : vs ++ w :: ws = (vs ++ [w]) ++ ws := by simp
  rw [hsplit, writeAll_append, byteAt_writeAll_of_not_covers hlast, writeAll_append]
  simp only [writeAll, List.foldl_cons, List.foldl_nil, byteAt_writeAt, if_pos hcovers]

/-- The same for the write at an index. -/
theorem byteAt_writeAll_getElem?
    {j : Nat}
    (hw : ws[j]? = some w)
    (hcovers : w.Covers i)
    (hlast : ∀ (k : Nat) (v : Write), j < k → ws[k]? = some v → ¬ v.Covers i) :
    byteAt (writeAll f ws) i = w.bytes.getD (i - w.offset) 0 := by
  obtain ⟨hj, hget⟩ := List.getElem?_eq_some_iff.mp hw
  have hsplit : ws = ws.take j ++ w :: ws.drop (j + 1) := by
    rw [← hget, ← List.drop_eq_getElem_cons hj, List.take_append_drop]
  have hrest : ∀ v ∈ ws.drop (j + 1), ¬ v.Covers i := by
    intro v hv
    obtain ⟨k, hk⟩ := List.mem_iff_getElem?.mp hv
    rw [List.getElem?_drop] at hk
    exact hlast (j + 1 + k) v (by omega) hk
  rw [hsplit]
  exact byteAt_writeAll hcovers hrest

/-- A byte is one of the file or one that a covering write wrote. -/
theorem byteAt_writeAll_cases
    (f : List UInt8) (ws : List Write) (i : Nat) :
    byteAt (writeAll f ws) i = byteAt f i ∨
      ∃ w ∈ ws, w.Covers i ∧ byteAt (writeAll f ws) i = w.bytes.getD (i - w.offset) 0 := by
  induction ws generalizing f with
  | nil =>
      exact Or.inl rfl
  | cons v ws ih =>
      rcases ih (writeAt f v) with heq | ⟨w, hw, hcovers, heq⟩
      · rw [byteAt_writeAt] at heq
        by_cases hv : v.Covers i
        · rw [if_pos hv] at heq
          exact Or.inr ⟨v, List.mem_cons_self, hv, heq⟩
        · rw [if_neg hv] at heq
          exact Or.inl heq
      · exact Or.inr ⟨w, List.mem_cons_of_mem _ hw, hcovers, heq⟩

@[simp] theorem length_readAt : (readAt f offset n).length = n := by
  simp [readAt]

theorem getD_readAt
    (hi : i < n) :
    (readAt f offset n).getD i 0 = byteAt f (offset + i) := by
  simp [readAt, List.getD_eq_getElem?_getD, hi]

/-- A region reads the same in files with the same bytes there. -/
theorem readAt_congr
    {g : List UInt8}
    (h : ∀ i, i < n → byteAt f (offset + i) = byteAt g (offset + i)) :
    readAt f offset n = readAt g offset n := by
  refine List.map_congr_left ?_
  intro i hi
  exact h i (List.mem_range.mp hi)

end Writes

section Words

variable {f : List UInt8} {offset : Nat}

/-- Every byte of a word is at least `b` if the bytes read are. -/
theorem le_wordAt
    {b : Nat}
    (h : ∀ i, i < 4 → b ≤ (byteAt f (offset + i)).toNat) :
    b * 16843009 ≤ wordAt f offset := by
  have h0 := h 0 (by omega)
  have h1 := h 1 (by omega)
  have h2 := h 2 (by omega)
  have h3 := h 3 (by omega)
  simp only [wordAt, readAt, List.range_succ, List.range_zero, List.nil_append, List.map_cons,
    List.map_nil, List.cons_append, leValue]
  omega

/-- The words of a file of zeros are zero. -/
theorem wordAt_replicate_zero
    (n offset : Nat) :
    wordAt (List.replicate n 0) offset = 0 := by
  have hbyte : ∀ i, byteAt (List.replicate n 0) i = 0 := by
    intro i
    by_cases hi : i < n
    · simp [byteAt, List.getD_eq_getElem?_getD, hi]
    · exact byteAt_of_length_le (by simpa using hi)
  simp only [wordAt, readAt, hbyte]
  rfl

/-- A word that was written is read back. -/
theorem wordAt_of_bytes
    {v : Nat}
    (hv : v < 2 ^ 32)
    (h : ∀ i, i < 4 → byteAt f (offset + i) = (leBytes 4 v).getD i 0) :
    wordAt f offset = v := by
  have hread : readAt f offset 4 = leBytes 4 v := by
    refine List.ext_getElem (by simp) ?_
    intro i hi hi'
    have hlt : i < 4 := by simpa using hi
    have heq := h i hlt
    rw [← getD_readAt (n := 4) hlt] at heq
    simpa [List.getD_eq_getElem?_getD, hi, hi', hlt] using heq
  rw [wordAt, hread, leValue_leBytes]
  exact Nat.mod_eq_of_lt (by simpa using hv)

end Words

/-- Blocks of `k` elements one after another: element `i` is element `i % k` of the
block `i / k`. -/
theorem getElem?_flatMap_of_length
    {α β : Type*} {g : α → List β} {k : Nat}
    (hk : 0 < k)
    (l : List α)
    (hlen : ∀ x ∈ l, (g x).length = k)
    (i : Nat) :
    (l.flatMap g)[i]? = (l[i / k]?).bind (fun x => (g x)[i % k]?) := by
  induction l generalizing i with
  | nil =>
      simp
  | cons x l ih =>
      have hx := hlen x List.mem_cons_self
      rw [List.flatMap_cons]
      by_cases hi : i < k
      · have hdiv : i / k = 0 := Nat.div_eq_of_lt hi
        have hmod : i % k = i := Nat.mod_eq_of_lt hi
        rw [List.getElem?_append_left (by omega), hdiv, hmod]
        rfl
      · obtain ⟨j, rfl⟩ := Nat.exists_eq_add_of_le (not_lt.mp hi)
        rw [List.getElem?_append_right (by omega), hx, Nat.add_sub_cancel_left,
          ih (fun y hy => hlen y (List.mem_cons_of_mem _ hy)), Nat.add_div_left _ hk,
          Nat.add_mod_left]
        rfl

end Lib
end SinIdeas
