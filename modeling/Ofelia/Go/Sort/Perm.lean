import Mathlib.GroupTheory.Perm.Basic
import Mathlib.Data.List.Nodup
import Ofelia.Go.Sort

/-! What a sort must do to a range of the slice, stated over `Slice` contents:
`PermOn a b s t` says `t` is `s` with the elements of `[a, b)` permuted and every
other element in place, and `SortedOn` that a range is in order of a key. Each
`swap` inside the range is such a permutation, the permutations of a range
compose, and a bound on every element of a range survives them. At the end the
contents of `[0, n)` are read back as a list, a permutation of the input that is
sorted.

The comparison all of this is about is `lessBy key`, a strict order by an
integer key, as the loader's comparison of priorities is. -/

namespace Ofelia.Sort

variable {α : Type}

@[simp] theorem swap_get (s : Slice α) (i j k : Nat) :
    (swap s i j).get k = if k = i then s.get j else if k = j then s.get i else s.get k := rfl

/-- `t` is `s` with the elements at `[a, b)` permuted among themselves. -/
def PermOn (a b : Nat) (s t : Slice α) : Prop :=
  ∃ σ : Equiv.Perm Nat, (∀ k, σ k ≠ k → a ≤ k ∧ k < b) ∧ ∀ k, t.get k = s.get (σ k)

namespace PermOn

variable {a b : Nat} {s t u : Slice α}

theorem refl (a b : Nat) (s : Slice α) : PermOn a b s s :=
  ⟨1, fun _ h => absurd rfl h, fun _ => rfl⟩

theorem trans (h₁ : PermOn a b s t) (h₂ : PermOn a b t u) : PermOn a b s u := by
  obtain ⟨σ, hσ, hs⟩ := h₁
  obtain ⟨τ, hτ, ht⟩ := h₂
  refine ⟨σ * τ, fun k hk => ?_, fun k => by rw [ht, hs, Equiv.Perm.mul_apply]⟩
  by_cases h : τ k = k
  · rw [Equiv.Perm.mul_apply, h] at hk
    exact hσ k hk
  · exact hτ k h

theorem mono (h : PermOn a b s t) {a' b' : Nat} (ha : a' ≤ a) (hb : b ≤ b') : PermOn a' b' s t := by
  obtain ⟨σ, hσ, hs⟩ := h
  exact ⟨σ, fun k hk => ⟨ha.trans (hσ k hk).1, (hσ k hk).2.trans_le hb⟩, hs⟩

/-- One `Swap` of two elements of the range. -/
theorem swap (s : Slice α) {i j : Nat} (hi : a ≤ i ∧ i < b) (hj : a ≤ j ∧ j < b) :
    PermOn a b s (Sort.swap s i j) := by
  refine ⟨Equiv.swap i j, fun k hk => ?_, fun k => ?_⟩
  · by_cases hki : k = i
    · exact hki ▸ hi
    by_cases hkj : k = j
    · exact hkj ▸ hj
    exact absurd (Equiv.swap_apply_of_ne_of_ne hki hkj) hk
  · simp only [Sort.swap, Equiv.swap_apply_def]
    split_ifs <;> rfl

/-- Outside the range nothing moves. -/
theorem get_eq (h : PermOn a b s t) {k : Nat} (hk : k < a ∨ b ≤ k) : t.get k = s.get k := by
  obtain ⟨σ, hσ, hs⟩ := h
  rw [hs]
  by_contra hne
  have := hσ k fun h' => hne (by rw [h'])
  omega

/-- The permutation keeps the range. -/
theorem mapsTo {σ : Equiv.Perm Nat} (hσ : ∀ k, σ k ≠ k → a ≤ k ∧ k < b) {k : Nat}
    (hk : a ≤ k ∧ k < b) : a ≤ σ k ∧ σ k < b := by
  by_cases h : σ (σ k) = σ k
  · rw [σ.injective h]
    exact hk
  · exact hσ _ h

/-- A property of every element of the range holds after the permutation. -/
theorem forall_mem (h : PermOn a b s t) {P : α → Prop} (hs : ∀ k, a ≤ k → k < b → P (s.get k)) :
    ∀ k, a ≤ k → k < b → P (t.get k) := by
  obtain ⟨σ, hσ, ht⟩ := h
  intro k hak hkb
  rw [ht]
  exact hs _ (mapsTo hσ ⟨hak, hkb⟩).1 (mapsTo hσ ⟨hak, hkb⟩).2

/-- A permutation of a subrange permutes the range, and whatever held of every
element of the subrange and of every element outside it still holds. -/
theorem forall_of_sub (h : PermOn a b s t) {P : α → Prop} {a' b' : Nat}
    (hs : ∀ k, a' ≤ k → k < b' → P (s.get k)) (ha : a' ≤ a) (hb : b ≤ b') :
    ∀ k, a' ≤ k → k < b' → P (t.get k) := by
  intro k hak hkb
  by_cases hk : a ≤ k ∧ k < b
  · exact h.forall_mem (fun k h₁ h₂ => hs k (ha.trans h₁) (h₂.trans_le hb)) k hk.1 hk.2
  · rw [h.get_eq (by omega)]
    exact hs k hak hkb

/-- The contents of `[0, n)`, read back as a list, are a permutation. -/
theorem list_perm (h : PermOn 0 n s t) :
    ((List.range n).map t.get).Perm ((List.range n).map s.get) := by
  obtain ⟨σ, hσ, ht⟩ := h
  have hmap : (List.range n).map t.get = ((List.range n).map σ).map s.get := by
    simp only [List.map_map]
    exact List.map_congr_left fun k _ => ht k
  rw [hmap]
  refine List.Perm.map _ ((List.perm_ext_iff_of_nodup ((List.nodup_range n).map σ.injective)
    (List.nodup_range n)).2 fun k => ?_)
  simp only [List.mem_map, List.mem_range]
  constructor
  · rintro ⟨j, hj, rfl⟩
    exact (mapsTo hσ ⟨Nat.zero_le j, hj⟩).2
  · intro hk
    refine ⟨σ.symm k, ?_, σ.apply_symm_apply k⟩
    have hσ' : ∀ k, σ.symm k ≠ k → 0 ≤ k ∧ k < n := fun k hk' =>
      hσ k fun h' => hk' (by rw [← h', σ.symm_apply_apply, h'])
    exact (mapsTo hσ' ⟨Nat.zero_le k, hk⟩).2

end PermOn

/-! ### Order by a key -/

section Key

variable (key : α → Int)

/-- The strict order of an integer key, as a `Less` function. -/
def lessBy (x y : α) : Bool := decide (key x < key y)

@[simp] theorem lessBy_eq_true {x y : α} : lessBy key x y = true ↔ key x < key y := by
  simp [lessBy]

@[simp] theorem lessBy_eq_false {x y : α} : lessBy key x y = false ↔ key y ≤ key x := by
  simp [lessBy]

/-- The elements of `[a, b)` are in order of their keys. -/
def SortedOn (s : Slice α) (a b : Nat) : Prop :=
  ∀ i j, a ≤ i → i ≤ j → j < b → key (s.get i) ≤ key (s.get j)

variable {key}

theorem sortedOn_of_le {s : Slice α} {a b : Nat} (h : b ≤ a + 1) : SortedOn key s a b := by
  intro i j hi hij hj
  rw [show i = j by omega]

/-- Sorted `[a, m)` and `[m, b)`, each element of the first at most each of the
second. -/
theorem SortedOn.append {s : Slice α} {a m b : Nat} (h₁ : SortedOn key s a m) (h₂ : SortedOn key s m b)
    (hc : ∀ i j, a ≤ i → i < m → m ≤ j → j < b → key (s.get i) ≤ key (s.get j)) :
    SortedOn key s a b := by
  intro i j hi hij hj
  by_cases hm : j < m
  · exact h₁ i j hi hij hm
  by_cases hm' : m ≤ i
  · exact h₂ i j hm' hij hj
  · exact hc i j hi (by omega) (by omega) hj

/-- Sorted `[a, n + 1)`: sorted `[a, n)` and the last element at least all of
them. -/
theorem sortedOn_succ {s : Slice α} {a n : Nat} (h : SortedOn key s a n)
    (hn : ∀ i, a ≤ i → i < n → key (s.get i) ≤ key (s.get n)) : SortedOn key s a (n + 1) :=
  h.append (sortedOn_of_le le_rfl) fun i j hi hin hj hj' => by
    rw [show j = n by omega]
    exact hn i hi hin

/-- Adjacent elements in order is order. -/
theorem sortedOn_of_adjacent {s : Slice α} {a b : Nat}
    (h : ∀ k, a < k → k < b → key (s.get (k - 1)) ≤ key (s.get k)) : SortedOn key s a b := by
  intro i j hi hij hj
  induction j, hij using Nat.le_induction with
  | base => exact le_rfl
  | succ j hij ih => exact (ih (by omega)).trans (h (j + 1) (by omega) hj)

theorem SortedOn.mono {s : Slice α} {a b a' b' : Nat} (h : SortedOn key s a b) (ha : a ≤ a')
    (hb : b' ≤ b) : SortedOn key s a' b' :=
  fun i j hi hij hj => h i j (ha.trans hi) hij (hj.trans_le hb)

/-- A range sorted and left alone stays sorted. -/
theorem SortedOn.of_permOn_outside {s t : Slice α} {a b a' b' : Nat} (h : SortedOn key s a b)
    (hp : PermOn a' b' s t) (hd : b ≤ a' ∨ b' ≤ a) : SortedOn key t a b := by
  intro i j hi hij hj
  rw [hp.get_eq (by omega), hp.get_eq (by omega)]
  exact h i j hi hij hj

/-- A sorted `[0, n)`, read back as a list, is sorted. -/
theorem SortedOn.list_pairwise {s : Slice α} {n : Nat} (h : SortedOn key s 0 n) :
    ((List.range n).map s.get).Pairwise fun x y => key x ≤ key y := by
  rw [List.pairwise_map]
  refine (List.pairwise_lt_range n).imp_of_mem fun hi hj hij => ?_
  exact h _ _ (Nat.zero_le _) (le_of_lt hij) (List.mem_range.1 hj)

variable (key) in
/-- The element just before `[a, b)` is at most every element of it: what
`pdqsort_func` knows of a range that does not start at `0`. -/
def Bounded (s : Slice α) (a b : Nat) : Prop :=
  0 < a → ∀ k, a ≤ k → k < b → key (s.get (a - 1)) ≤ key (s.get k)

/-- Permuting part of the range keeps the bound. -/
theorem Bounded.of_permOn {s t : Slice α} {a b a' b' : Nat} (hb : Bounded key s a b)
    (h : PermOn a' b' s t) (ha : a ≤ a') (hb' : b' ≤ b) : Bounded key t a b := by
  intro ha0
  rw [h.get_eq (by omega)]
  exact h.forall_of_sub (P := fun x => key (s.get (a - 1)) ≤ key x) (hb ha0) ha hb'

theorem Bounded.mono {s : Slice α} {a b b' : Nat} (h : Bounded key s a b) (hb : b' ≤ b) :
    Bounded key s a b' :=
  fun ha k hk hk' => h ha k hk (hk'.trans_le hb)

end Key

/-- The slice `sort.Slice` starts from: the list's elements, then `x` forever. -/
theorem map_getD_range (xs : List α) (x : α) :
    (List.range xs.length).map (fun i => xs.getD i x) = xs := by
  refine List.ext_getElem (by simp) fun i h₁ h₂ => ?_
  simp [List.getElem?_eq_getElem h₂]

end Ofelia.Sort
