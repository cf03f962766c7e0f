import Mathlib.Data.List.Nodup

/-!
# Changing the first element that matches

The lists of the program are searched by a condition and the first element
found is changed in place, through its pointer. `modifyFirst` is that change;
its companions `List.find?` and `List.eraseP` find and remove the same element.
-/

namespace SinIdeas
namespace Lib

universe u v

variable {α : Type u} {β : Type v}

/-- Apply `f` to the first element that satisfies `p`. -/
def modifyFirst (p : α → Bool) (f : α → α) : List α → List α
  | [] => []
  | x :: l => if p x then f x :: l else x :: modifyFirst p f l

variable {p : α → Bool} {f : α → α}

/-- The change splits the list at the element that is found. -/
theorem modifyFirst_split
    {l : List α} {x : α}
    (h : l.find? p = some x) :
    ∃ a b, l = a ++ x :: b ∧ modifyFirst p f l = a ++ f x :: b := by
  induction l with
  | nil =>
      simp at h
  | cons y l ih =>
      by_cases hy : p y = true
      · rw [List.find?_cons_of_pos hy] at h
        cases h
        exact ⟨[], l, rfl, by simp [modifyFirst, hy]⟩
      · rw [List.find?_cons_of_neg hy] at h
        obtain ⟨a, b, hl, hm⟩ := ih h
        exact ⟨y :: a, b, by rw [hl]; rfl, by simp [modifyFirst, hy, hm]⟩

/-- Lists read off the elements change at one place. -/
theorem flatMap_modifyFirst
    {g : α → List β} {l : List α} {x : α}
    (h : l.find? p = some x) :
    ∃ rest, (l.flatMap g).Perm (g x ++ rest) ∧
      ((modifyFirst p f l).flatMap g).Perm (g (f x) ++ rest) := by
  obtain ⟨a, b, hl, hm⟩ := modifyFirst_split (f := f) h
  refine ⟨a.flatMap g ++ b.flatMap g, ?_, ?_⟩
  · rw [hl, List.flatMap_append, List.flatMap_cons, ← List.append_assoc, ← List.append_assoc]
    exact List.perm_append_comm.append_right _
  · rw [hm, List.flatMap_append, List.flatMap_cons, ← List.append_assoc, ← List.append_assoc]
    exact List.perm_append_comm.append_right _

/-- A projection that `f` keeps on what it is applied to is kept. -/
theorem map_modifyFirst
    {g : α → β} {l : List α}
    (hg : ∀ x, l.find? p = some x → g (f x) = g x) :
    (modifyFirst p f l).map g = l.map g := by
  induction l with
  | nil =>
      rfl
  | cons x l ih =>
      unfold modifyFirst
      by_cases hx : p x = true
      · simp [hx, hg x (by simp [hx])]
      · rw [if_neg hx, List.map_cons, List.map_cons, ih]
        intro y hy
        exact hg y (by simpa [hx] using hy)

/-- The elements after the change: the old ones, and the changed one. -/
theorem mem_modifyFirst
    {l : List α} {y : α}
    (hy : y ∈ modifyFirst p f l) :
    y ∈ l ∨ ∃ x, l.find? p = some x ∧ y = f x := by
  induction l with
  | nil =>
      simp [modifyFirst] at hy
  | cons x l ih =>
      unfold modifyFirst at hy
      by_cases hx : p x = true
      · rw [if_pos hx] at hy
        rcases List.mem_cons.mp hy with rfl | hy
        · exact Or.inr ⟨x, by simp [hx], rfl⟩
        · exact Or.inl (List.mem_cons_of_mem x hy)
      · rw [if_neg hx] at hy
        rcases List.mem_cons.mp hy with rfl | hy
        · exact Or.inl (List.mem_cons_self ..)
        · rcases ih hy with hy | ⟨z, hz, rfl⟩
          · exact Or.inl (List.mem_cons_of_mem x hy)
          · exact Or.inr ⟨z, by simpa [hx] using hz, rfl⟩

/-- An element that does not match stays. -/
theorem mem_modifyFirst_of_neg
    {l : List α} {y : α}
    (hy : y ∈ l)
    (hp : p y = false) :
    y ∈ modifyFirst p f l := by
  induction l with
  | nil =>
      simp at hy
  | cons x l ih =>
      unfold modifyFirst
      rcases List.mem_cons.mp hy with rfl | hy
      · simp [hp]
      · split_ifs
        · exact List.mem_cons_of_mem _ hy
        · exact List.mem_cons_of_mem _ (ih hy)

/-- The changed element is found again when `f` keeps it matching. -/
theorem find?_modifyFirst
    {l : List α}
    (hp : ∀ x, p (f x) = p x) :
    (modifyFirst p f l).find? p = (l.find? p).map f := by
  induction l with
  | nil =>
      rfl
  | cons x l ih =>
      unfold modifyFirst
      by_cases hx : p x = true
      · simp [hx, hp x]
      · rw [if_neg hx, List.find?_cons_of_neg (by simpa using hx),
          List.find?_cons_of_neg (by simpa using hx), ih]

/-- A search for something else is not affected. -/
theorem find?_modifyFirst_of_disjoint
    {q : α → Bool} {l : List α}
    (hq : ∀ x, p x = true → q x = false ∧ q (f x) = false) :
    (modifyFirst p f l).find? q = l.find? q := by
  induction l with
  | nil =>
      rfl
  | cons x l ih =>
      unfold modifyFirst
      by_cases hx : p x = true
      · simp [hx, hq x hx]
      · rw [if_neg hx, List.find?_cons, List.find?_cons, ih]

/-- The change is at the index of the first match. -/
theorem modifyFirst_eq_set
    {l : List α} {i : Nat} {x : α}
    (hget : l[i]? = some x)
    (hx : p x = true)
    (hfirst : ∀ j y, j < i → l[j]? = some y → p y = false) :
    modifyFirst p f l = l.set i (f x) := by
  induction l generalizing i with
  | nil =>
      simp at hget
  | cons y l ih =>
      cases i with
      | zero =>
          simp only [List.getElem?_cons_zero, Option.some.injEq] at hget
          subst hget
          simp [modifyFirst, hx]
      | succ i =>
          have hy : p y = false := hfirst 0 y (Nat.zero_lt_succ i) rfl
          rw [List.getElem?_cons_succ] at hget
          rw [modifyFirst, if_neg (by simp [hy]), List.set_cons_succ,
            ih hget (fun j z hj hz => hfirst (j + 1) z (by omega) (by simpa using hz))]

/-- Changing what is already as it should be changes nothing. -/
theorem modifyFirst_eq_self
    {l : List α}
    (hf : ∀ x, l.find? p = some x → f x = x) :
    modifyFirst p f l = l := by
  have hmap := map_modifyFirst (g := id) hf
  rwa [List.map_id, List.map_id] at hmap

/-- Two changes of one element. -/
theorem modifyFirst_modifyFirst
    {h : α → α} {l : List α}
    (hp : ∀ x, p (f x) = p x) :
    modifyFirst p h (modifyFirst p f l) = modifyFirst p (fun x => h (f x)) l := by
  induction l with
  | nil =>
      rfl
  | cons x l ih =>
      by_cases hx : p x = true
      · simp [modifyFirst, hx, hp x]
      · simp [modifyFirst, hx, ih]

/-- Reading off the elements first. -/
theorem modifyFirst_map
    {g : α → β} {q : β → Bool} {h : β → β} {l : List α}
    (hq : ∀ x, q (g x) = p x)
    (hg : ∀ x, l.find? p = some x → h (g x) = g (f x)) :
    modifyFirst q h (l.map g) = (modifyFirst p f l).map g := by
  induction l with
  | nil =>
      rfl
  | cons x l ih =>
      by_cases hx : p x = true
      · simp [modifyFirst, hx, hq x, hg x (by simp [hx])]
      · rw [List.map_cons, modifyFirst, modifyFirst, hq, if_neg hx, if_neg hx, List.map_cons, ih]
        intro y hy
        exact hg y (by simpa [hx] using hy)

theorem modifyFirst_append
    {l m : List α} {x : α}
    (h : l.find? p = some x) :
    modifyFirst p f (l ++ m) = modifyFirst p f l ++ m := by
  induction l with
  | nil =>
      simp at h
  | cons y l ih =>
      by_cases hy : p y = true
      · simp [modifyFirst, hy]
      · rw [List.find?_cons_of_neg hy] at h
        simp [modifyFirst, hy, ih h]

/-- Removing one element and changing another. -/
theorem modifyFirst_eraseP
    {q : α → Bool} {l : List α}
    (hq : ∀ x, q (f x) = q x)
    (hdisjoint : ∀ x, p x = true → q x = false) :
    modifyFirst p f (l.eraseP q) = (modifyFirst p f l).eraseP q := by
  induction l with
  | nil =>
      rfl
  | cons x l ih =>
      by_cases hx : p x = true
      · simp [modifyFirst, hx, hq x, hdisjoint x hx]
      · by_cases hqx : q x = true
        · simp [modifyFirst, hx, hqx]
        · simp [modifyFirst, hx, hqx, ih]

section Keys

variable {κ : Type v} [DecidableEq κ] {key : α → κ} {l l' : List α} {k : κ} {x : α}

/-- With distinct keys the element with a key is the one that is found. -/
theorem find?_key_iff
    (hnodup : (l.map key).Nodup) :
    l.find? (fun a => key a == k) = some x ↔ x ∈ l ∧ key x = k := by
  constructor
  · intro h
    have hkey := List.find?_some h
    rw [beq_iff_eq] at hkey
    exact ⟨List.mem_of_find?_eq_some h, hkey⟩
  · rintro ⟨hx, rfl⟩
    cases hfind : l.find? (fun a => key a == key x) with
    | none =>
        have hno := List.find?_eq_none.mp hfind x hx
        simp at hno
    | some y =>
        have hkey := List.find?_some hfind
        rw [beq_iff_eq] at hkey
        rw [List.inj_on_of_nodup_map hnodup (List.mem_of_find?_eq_some hfind) hx hkey]

/-- With distinct keys the order does not matter to a search. -/
theorem find?_key_of_perm
    (hperm : l'.Perm l)
    (hnodup : (l.map key).Nodup)
    (h : l.find? (fun a => key a == k) = some x) :
    l'.find? (fun a => key a == k) = some x := by
  obtain ⟨hx, hkey⟩ := (find?_key_iff hnodup).mp h
  exact (find?_key_iff ((hperm.map key).nodup_iff.mpr hnodup)).mpr
    ⟨hperm.mem_iff.mpr hx, hkey⟩

/-- Removing the first element of one key does not affect a search for another. -/
theorem find?_eraseP_of_ne
    {j : κ}
    (hne : j ≠ k)
    (h : l.find? (fun a => key a == k) = some x) :
    (l.eraseP (fun a => key a == j)).find? (fun a => key a == k) = some x := by
  induction l with
  | nil =>
      simp at h
  | cons y l ih =>
      by_cases hj : key y = j
      · have hyk : key y ≠ k := hj.trans_ne hne
        rw [List.eraseP_cons_of_pos (by simpa using hj)]
        rwa [List.find?_cons_of_neg (by simpa using hyk)] at h
      · rw [List.eraseP_cons_of_neg (by simpa using hj)]
        by_cases hk : key y = k
        · rw [List.find?_cons_of_pos (by simpa using hk)] at h ⊢
          exact h
        · rw [List.find?_cons_of_neg (by simpa using hk)] at h ⊢
          exact ih h

end Keys

section KeyCount

variable {κ : Type v} [DecidableEq κ] [BEq κ] [LawfulBEq κ] {key : α → κ} {l : List α} {k : κ}

/-- With a key that occurs once, the first match is the only one. -/
theorem find?_eraseP_of_count_eq_one
    (h : (l.map key).count k = 1) :
    ∃ x ∈ l, key x = k ∧ l.find? (fun a => key a == k) = some x ∧
      l.eraseP (fun a => key a == k) = l.filter (fun a => key a ≠ k) := by
  induction l with
  | nil =>
      simp at h
  | cons y l ih =>
      by_cases hk : key y = k
      · have hrest : k ∉ l.map key := by
          rw [List.map_cons, hk, List.count_cons_self] at h
          exact List.count_eq_zero.mp (by omega)
        have hall : ∀ a ∈ l, decide (key a ≠ k) = true := by
          intro a ha
          simpa using fun heq : key a = k => hrest (List.mem_map.mpr ⟨a, ha, heq⟩)
        refine ⟨y, List.mem_cons_self, hk, List.find?_cons_of_pos (by simpa using hk), ?_⟩
        rw [List.eraseP_cons_of_pos (by simpa using hk), List.filter_cons_of_neg (by simpa using hk),
          List.filter_eq_self.mpr hall]
      · rw [List.map_cons, List.count_cons_of_ne hk] at h
        obtain ⟨x, hx, hkey, hfind, herase⟩ := ih h
        refine ⟨x, List.mem_cons_of_mem y hx, hkey, ?_, ?_⟩
        · rw [List.find?_cons_of_neg (by simpa using hk), hfind]
        · rw [List.eraseP_cons_of_neg (by simpa using hk), List.filter_cons_of_pos (by simpa using hk),
            herase]

/-- Keeping the elements of other keys does not change how often a key occurs. -/
theorem count_map_filter_key_ne
    {j : κ}
    (hne : k ≠ j) :
    ((l.filter (fun a => key a ≠ j)).map key).count k = (l.map key).count k := by
  induction l with
  | nil =>
      rfl
  | cons y l ih =>
      by_cases hj : key y = j
      · rw [List.filter_cons_of_neg (by simpa using hj), List.map_cons,
          List.count_cons_of_ne (hj.trans_ne hne.symm), ih]
      · rw [List.filter_cons_of_pos (by simpa using hj), List.map_cons, List.map_cons,
          List.count_cons, List.count_cons, ih]

/-- A search among the elements of other keys. -/
theorem find?_filter_key_ne
    (l : List α) (j k : κ) :
    (l.filter (fun a => !(key a == j))).find? (fun a => key a == k) =
      if k = j then none else l.find? (fun a => key a == k) := by
  induction l with
  | nil =>
      simp
  | cons y l ih =>
      by_cases hj : key y = j
      · rw [List.filter_cons_of_neg (by simp [hj]), ih]
        by_cases hk : k = j
        · rw [if_pos hk, if_pos hk]
        · have hyk : key y ≠ k := fun heq => hk (heq.symm.trans hj)
          rw [if_neg hk, if_neg hk, List.find?_cons_of_neg (by simpa using hyk)]
      · rw [List.filter_cons_of_pos (by simp [hj])]
        by_cases hyk : key y = k
        · have hk : k ≠ j := fun heq => hj (hyk.trans heq)
          rw [List.find?_cons_of_pos (by simpa using hyk), if_neg hk,
            List.find?_cons_of_pos (by simpa using hyk)]
        · rw [List.find?_cons_of_neg (by simpa using hyk), ih,
            List.find?_cons_of_neg (by simpa using hyk)]

end KeyCount

end Lib
end SinIdeas
