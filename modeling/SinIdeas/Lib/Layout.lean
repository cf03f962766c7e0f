import Mathlib.Data.List.Basic
import Mathlib.Order.Lattice

/-!
# Segments laid out in an interval, and the tiling they induce

A segment is an element `x` with two ends `lo x ≤ hi x` in a linear order.
`Packed a b l` says that the segments of `l` lie inside `[a, b]` one after
another; empty segments are allowed and may share their position with others.

`tiling a b l` covers `[a, b]`: it lists the segments and puts a gap wherever
two consecutive ones leave room. A packed list stays packed when segments are
taken out, and when a new one is put at the beginning of a gap of its tiling.
-/

namespace SinIdeas
namespace Lib

universe u v

/-- A piece of a tiling: room left free, or a segment. -/
inductive Tile (κ : Type v) (α : Type u) where
  | gap (a b : κ)
  | seg (x : α)

section Layout

variable {α : Type u} {κ : Type v} [LinearOrder κ]
variable (lo hi : α → κ)

/-- The segments of `l` lie in `[a, b]`, one after another. -/
def Packed (a b : κ) : List α → Prop
  | [] => a ≤ b
  | x :: l => a ≤ lo x ∧ lo x ≤ hi x ∧ Packed (hi x) b l

/-- Left end of a tile. -/
def Tile.left : Tile κ α → κ
  | .gap a _ => a
  | .seg x => lo x

/-- Right end of a tile. -/
def Tile.right : Tile κ α → κ
  | .gap _ b => b
  | .seg x => hi x

/-- The segment of a tile, if it is one. -/
def Tile.seg? : Tile κ α → Option α
  | .gap _ _ => none
  | .seg x => some x

/-- The gap between `a` and `b`, when there is room. -/
def gapBetween (a b : κ) : List (Tile κ α) :=
  if a < b then [.gap a b] else []

/-- The segments of `l` and the gaps they leave in `[a, b]`. -/
def tiling (a b : κ) : List α → List (Tile κ α)
  | [] => gapBetween a b
  | x :: l => gapBetween a (lo x) ++ .seg x :: tiling (hi x) b l

/-- The tiles follow one another from `a` to `b`. -/
def Tiles (a b : κ) : List (Tile κ α) → Prop
  | [] => a = b
  | t :: ts => t.left lo = a ∧ Tiles (t.right hi) b ts

variable {lo hi}

/-- Both ends of the interval of a packed list are in order. -/
theorem Packed.le
    {a b : κ} {l : List α}
    (h : Packed lo hi a b l) :
    a ≤ b := by
  induction l generalizing a with
  | nil =>
      exact h
  | cons x l ih =>
      obtain ⟨ha, hx, hl⟩ := h
      exact ha.trans (hx.trans (ih hl))

/-- A larger interval to the left keeps a list packed. -/
theorem Packed.weaken_left
    {a a' b : κ} {l : List α}
    (h : Packed lo hi a b l)
    (ha : a' ≤ a) :
    Packed lo hi a' b l := by
  cases l with
  | nil =>
      exact ha.trans h
  | cons x l =>
      exact ⟨ha.trans h.1, h.2⟩

/-- Two packed lists that meet at `c` are packed together. -/
theorem Packed.append
    {a b c : κ} {l m : List α}
    (hl : Packed lo hi a c l)
    (hm : Packed lo hi c b m) :
    Packed lo hi a b (l ++ m) := by
  induction l generalizing a with
  | nil =>
      exact hm.weaken_left hl
  | cons x l ih =>
      exact ⟨hl.1, hl.2.1, ih hl.2.2⟩

/-- Taking segments out keeps a list packed. -/
theorem Packed.sublist
    {a b : κ} {l m : List α}
    (h : Packed lo hi a b l)
    (hsub : m.Sublist l) :
    Packed lo hi a b m := by
  induction hsub generalizing a with
  | slnil =>
      exact h
  | cons x _ ih =>
      exact ih (h.2.2.weaken_left (h.1.trans h.2.1))
  | cons_cons x _ ih =>
      exact ⟨h.1, h.2.1, ih h.2.2⟩

/-- Every segment of a packed list lies in the interval. -/
theorem Packed.mem_bounds
    {a b : κ} {l : List α} {x : α}
    (h : Packed lo hi a b l)
    (hx : x ∈ l) :
    a ≤ lo x ∧ lo x ≤ hi x ∧ hi x ≤ b := by
  induction l generalizing a with
  | nil =>
      simp at hx
  | cons y l ih =>
      rcases List.mem_cons.mp hx with rfl | hx
      · exact ⟨h.1, h.2.1, h.2.2.le⟩
      · obtain ⟨h₁, h₂, h₃⟩ := ih h.2.2 hx
        exact ⟨h.1.trans (h.2.1.trans h₁), h₂, h₃⟩

/-- The segments of a packed list are disjoint, in order. -/
theorem Packed.pairwise
    {a b : κ} {l : List α}
    (h : Packed lo hi a b l) :
    l.Pairwise (fun x y => hi x ≤ lo y) := by
  induction l generalizing a with
  | nil =>
      exact List.Pairwise.nil
  | cons x l ih =>
      exact List.pairwise_cons.mpr
        ⟨fun y hy => (h.2.2.mem_bounds hy).1, ih h.2.2⟩

/-- The left ends of a packed list are sorted. -/
theorem Packed.sorted
    {a b : κ} {l : List α}
    (h : Packed lo hi a b l) :
    l.Pairwise (fun x y => lo x ≤ lo y) := by
  refine h.pairwise.imp_of_mem ?_
  intro x y hx _ hxy
  exact (h.mem_bounds hx).2.1.trans hxy

theorem tiles_gapBetween_append
    {a b c : κ} {ts : List (Tile κ α)}
    (hab : a ≤ b)
    (hts : Tiles lo hi b c ts) :
    Tiles lo hi a c (gapBetween a b ++ ts) := by
  unfold gapBetween
  split_ifs with h
  · exact ⟨rfl, hts⟩
  · rw [le_antisymm hab (not_lt.mp h)]
    exact hts

/-- The tiling of a packed list covers the interval exactly. -/
theorem Packed.tiles
    {a b : κ} {l : List α}
    (h : Packed lo hi a b l) :
    Tiles lo hi a b (tiling lo hi a b l) := by
  induction l generalizing a with
  | nil =>
      have hend : Tiles lo hi b b [] := rfl
      simpa [tiling] using tiles_gapBetween_append h hend
  | cons x l ih =>
      exact tiles_gapBetween_append h.1 ⟨rfl, ih h.2.2⟩

omit [LinearOrder κ] in
/-- Tiles that follow one another touch. -/
theorem Tiles.isChain
    {a b : κ} {ts : List (Tile κ α)}
    (h : Tiles lo hi a b ts) :
    ts.IsChain (fun s t => s.right hi = t.left lo) := by
  induction ts generalizing a with
  | nil =>
      exact List.IsChain.nil
  | cons s ts ih =>
      cases ts with
      | nil =>
          exact List.IsChain.singleton s
      | cons t ts =>
          exact List.isChain_cons_cons.mpr ⟨h.2.1.symm, ih h.2⟩

/-- The first tile begins at the left end. -/
theorem Tiles.head
    {a b : κ} {ts : List (Tile κ α)}
    (h : Tiles lo hi a b ts)
    (hab : a < b) :
    ∃ t, ts.head? = some t ∧ t.left lo = a := by
  cases ts with
  | nil =>
      exact absurd h hab.ne
  | cons t ts =>
      exact ⟨t, rfl, h.1⟩

omit [LinearOrder κ] in
/-- The last tile ends at the right end. -/
theorem Tiles.getLast
    {a b : κ} {ts : List (Tile κ α)}
    (h : Tiles lo hi a b ts)
    (hne : ts ≠ []) :
    ∃ t, ts.getLast? = some t ∧ t.right hi = b := by
  induction ts generalizing a with
  | nil =>
      exact absurd rfl hne
  | cons s ts ih =>
      cases ts with
      | nil =>
          exact ⟨s, rfl, h.2⟩
      | cons t ts =>
          obtain ⟨u, hu, hb⟩ := ih h.2 (by simp)
          exact ⟨u, by simpa using hu, hb⟩

@[simp] theorem filterMap_gapBetween
    (a b : κ) :
    (gapBetween a b : List (Tile κ α)).filterMap Tile.seg? = [] := by
  unfold gapBetween
  split_ifs <;> rfl

/-- The segments of the tiling are the given ones. -/
theorem filterMap_tiling
    (a b : κ) (l : List α) :
    (tiling lo hi a b l).filterMap Tile.seg? = l := by
  induction l generalizing a with
  | nil =>
      exact filterMap_gapBetween a b
  | cons x l ih =>
      rw [tiling, List.filterMap_append, filterMap_gapBetween, List.filterMap_cons]
      simp [Tile.seg?, ih]

theorem mem_gapBetween
    {a b : κ} {t : Tile κ α} :
    t ∈ (gapBetween a b : List (Tile κ α)) ↔ a < b ∧ t = .gap a b := by
  unfold gapBetween
  split_ifs with h <;> simp [h]

/-- A gap of the tiling is not empty. -/
theorem lt_of_gap_mem
    {a b g h : κ} {l : List α}
    (hmem : Tile.gap g h ∈ tiling lo hi a b l) :
    g < h := by
  induction l generalizing a with
  | nil =>
      obtain ⟨hlt, heq⟩ := mem_gapBetween.mp hmem
      cases heq
      exact hlt
  | cons x l ih =>
      rw [tiling, List.mem_append, List.mem_cons, mem_gapBetween] at hmem
      rcases hmem with ⟨hlt, heq⟩ | heq | hmem
      · cases heq
        exact hlt
      · cases heq
      · exact ih hmem

/-- A gap of the tiling separates the segments: those before it end where it
begins at the latest, those after it begin where it ends at the earliest. -/
theorem Packed.split_of_gap
    {a b g h : κ} {l : List α}
    (hp : Packed lo hi a b l)
    (hmem : Tile.gap g h ∈ tiling lo hi a b l) :
    ∃ l₁ l₂ : List α,
      l = l₁ ++ l₂ ∧
      Packed lo hi a g l₁ ∧
      Packed lo hi h b l₂ := by
  induction l generalizing a with
  | nil =>
      obtain ⟨_, heq⟩ := mem_gapBetween.mp hmem
      cases heq
      exact ⟨[], [], rfl, le_rfl, le_rfl⟩
  | cons x l ih =>
      rw [tiling, List.mem_append, List.mem_cons, mem_gapBetween] at hmem
      rcases hmem with ⟨_, heq⟩ | heq | hmem
      · cases heq
        exact ⟨[], x :: l, rfl, le_rfl, le_rfl, hp.2⟩
      · cases heq
      · obtain ⟨l₁, l₂, rfl, h₁, h₂⟩ := ih hp.2.2 hmem
        exact ⟨x :: l₁, l₂, rfl, ⟨hp.1, hp.2.1, h₁⟩, h₂⟩

/-- The tiles of a packed list lie in the interval. -/
theorem Packed.tile_bounds
    {a b : κ} {l : List α} {t : Tile κ α}
    (hp : Packed lo hi a b l)
    (ht : t ∈ tiling lo hi a b l) :
    a ≤ t.left lo ∧ t.left lo ≤ t.right hi ∧ t.right hi ≤ b := by
  induction l generalizing a with
  | nil =>
      obtain ⟨_, rfl⟩ := mem_gapBetween.mp ht
      exact ⟨le_rfl, hp, le_rfl⟩
  | cons x l ih =>
      rw [tiling, List.mem_append, List.mem_cons, mem_gapBetween] at ht
      rcases ht with ⟨_, rfl⟩ | rfl | ht
      · exact ⟨le_rfl, hp.1, hp.2.1.trans hp.2.2.le⟩
      · exact ⟨hp.1, hp.2.1, hp.2.2.le⟩
      · obtain ⟨h₁, h₂, h₃⟩ := ih hp.2.2 ht
        exact ⟨(hp.1.trans hp.2.1).trans h₁, h₂, h₃⟩

/-- The tiling never puts a gap next to another one. -/
def notBothGaps (s t : Tile κ α) : Prop :=
  s.seg? ≠ none ∨ t.seg? ≠ none

theorem isChain_gapBetween_cons
    {a b : κ} {x : α} {ts : List (Tile κ α)}
    (h : (Tile.seg x :: ts).IsChain notBothGaps) :
    (gapBetween a b ++ Tile.seg x :: ts).IsChain notBothGaps := by
  unfold gapBetween
  split_ifs
  · exact List.isChain_cons_cons.mpr ⟨Or.inr (by simp [Tile.seg?]), h⟩
  · exact h

theorem isChain_tiling
    (a b : κ) (l : List α) :
    (tiling lo hi a b l).IsChain notBothGaps := by
  induction l generalizing a with
  | nil =>
      unfold tiling gapBetween
      split_ifs <;> simp
  | cons x l ih =>
      refine isChain_gapBetween_cons ?_
      cases hts : tiling lo hi (hi x) b l with
      | nil =>
          simp
      | cons t ts =>
          refine List.isChain_cons_cons.mpr ⟨Or.inl (by simp [Tile.seg?]), ?_⟩
          rw [← hts]
          exact ih (hi x)

end Layout

end Lib
end SinIdeas
