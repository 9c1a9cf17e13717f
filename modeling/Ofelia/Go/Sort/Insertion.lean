import Ofelia.Go.Sort.Perm

/-! The insertion loops of `sort.Slice`: `insertionSort_func` sorts its range,
and `partialInsertionSort_func` permutes its range and reports it sorted only
when it is. The left shift of `partialInsertionSort_func` runs down to index `1`,
not to the start `a` of its range; it stays within the range because the
element before the range is at most all of it (`Bounded`), which `pdqsort_func`
keeps for every range it sorts. -/

namespace Ofelia.Sort

variable {α : Type} {key : α → Int}

/-! ### Scanning -/

/-- `scanUp` stops at the first index from `i` on that fails `p`, or at `lim`. -/
theorem scanUp_spec (p : Nat → Bool) (lim : Nat) :
    ∀ fuel i, i ≤ lim → lim ≤ i + fuel →
      i ≤ scanUp p lim fuel i ∧ scanUp p lim fuel i ≤ lim ∧
        (∀ k, i ≤ k → k < scanUp p lim fuel i → p k = true) ∧
        (scanUp p lim fuel i < lim → p (scanUp p lim fuel i) = false)
  | 0, i, h₁, h₂ => by
    simp only [scanUp]
    exact ⟨le_rfl, h₁, fun k h h' => absurd h' (by omega), fun h => absurd h (by omega)⟩
  | fuel + 1, i, h₁, h₂ => by
    simp only [scanUp]
    split_ifs with h
    · obtain ⟨r₁, r₂, r₃, r₄⟩ := scanUp_spec p lim fuel (i + 1) (by omega) (by omega)
      refine ⟨by omega, r₂, fun k hk hk' => ?_, r₄⟩
      rcases Nat.eq_or_lt_of_le hk with rfl | hk
      · exact h.2
      · exact r₃ k hk hk'
    · refine ⟨le_rfl, h₁, fun k h h' => absurd h' (by omega), fun hl => ?_⟩
      simpa [hl] using h

/-! ### Insertion -/

/-- The inner loop of `insertionSort_func` inserts the element at `j` into the
sorted `[lo, j)`. -/
theorem shiftLeft_spec (lo : Nat) :
    ∀ j (s : Slice α), lo ≤ j → SortedOn key s lo j →
      PermOn lo (j + 1) s (shiftLeft (lessBy key) lo s j) ∧
        SortedOn key (shiftLeft (lessBy key) lo s j) lo (j + 1)
  | 0, s, _, _ => ⟨PermOn.refl _ _ _, sortedOn_of_le (by omega)⟩
  | j + 1, s, hlo, hs => by
    simp only [shiftLeft]
    split_ifs with h
    · simp only [lessBy_eq_true] at h
      have hsw := PermOn.swap s (a := j) (b := j + 2) (i := j + 1) (j := j) ⟨by omega, by omega⟩
        ⟨by omega, by omega⟩
      obtain ⟨hp, hsorted⟩ := shiftLeft_spec lo j (swap s (j + 1) j) (by omega)
        ((hs.mono le_rfl (Nat.le_succ j)).of_permOn_outside hsw (by omega))
      refine ⟨((hsw.mono (by omega) le_rfl).trans (hp.mono le_rfl (by omega))), ?_⟩
      refine sortedOn_succ hsorted fun i hi hij => ?_
      rw [hp.get_eq (Or.inr le_rfl)]
      refine hp.forall_mem (P := fun x => key x ≤ key ((swap s (j + 1) j).get (j + 1)))
        (fun k hk hk' => ?_) i hi hij
      simp only [swap, if_pos rfl]
      split_ifs with h₁ h₂
      · omega
      · exact h.2.le
      · exact hs k j hk (by omega) (by omega)
    · refine ⟨PermOn.refl _ _ _, ?_⟩
      by_cases hl : lo < j + 1
      · simp only [hl, true_and, Bool.not_eq_true, lessBy_eq_false] at h
        exact sortedOn_succ hs fun i hi hij => (hs i j hi (by omega) (by omega)).trans h
      · exact sortedOn_of_le (by omega)

variable (key) in
/-- The outer loop of `insertionSort_func` from `i`, with `[a, i)` sorted. -/
theorem insertionSort_loop (a : Nat) :
    ∀ n i (s : Slice α), a < i → SortedOn key s a i →
      PermOn a (i + n) s ((List.range' i n).foldl (fun data i => shiftLeft (lessBy key) a data i) s) ∧
        SortedOn key ((List.range' i n).foldl (fun data i => shiftLeft (lessBy key) a data i) s) a (i + n)
  | 0, i, s, _, hs => ⟨PermOn.refl _ _ _, hs⟩
  | n + 1, i, s, hi, hs => by
    rw [List.range'_succ, List.foldl_cons]
    obtain ⟨hp, hsorted⟩ := shiftLeft_spec a i s hi.le hs
    obtain ⟨hp', hsorted'⟩ := insertionSort_loop a n (i + 1) _ (by omega) hsorted
    rw [Nat.add_right_comm, Nat.add_assoc] at hp' hsorted'
    exact ⟨(hp.mono le_rfl (by omega)).trans hp', hsorted'⟩

/-- `insertionSort_func` sorts `data[a:b]`. -/
theorem insertionSort_spec (s : Slice α) (a b : Nat) :
    PermOn a b s (insertionSort (lessBy key) s a b) ∧ SortedOn key (insertionSort (lessBy key) s a b) a b := by
  by_cases hab : a < b
  · have h := insertionSort_loop key a (b - (a + 1)) (a + 1) s (by omega) (sortedOn_of_le le_rfl)
    rwa [show a + 1 + (b - (a + 1)) = b by omega] at h
  · simp only [insertionSort, show b - (a + 1) = 0 by omega, List.range'_zero, List.foldl_nil]
    exact ⟨PermOn.refl _ _ _, sortedOn_of_le (by omega)⟩

/-! ### Partial insertion sort -/

/-- The left shift run down to index `0` stops at `a` when the element before
`a` is at most every element of `[a, j]`. -/
theorem shiftLeft_zero_eq {a : Nat} :
    ∀ j (s : Slice α), a ≤ j → Bounded key s a (j + 1) →
      shiftLeft (lessBy key) 0 s j = shiftLeft (lessBy key) a s j
  | 0, s, _, _ => rfl
  | j + 1, s, hj, hb => by
    rcases Nat.eq_or_lt_of_le hj with rfl | hj
    · have h := hb (by omega) (j + 1) le_rfl (by omega)
      simp only [Nat.add_sub_cancel] at h
      simp [shiftLeft, h]
    · simp only [shiftLeft, Nat.zero_lt_succ, true_and, hj, lessBy_eq_true]
      split_ifs
      · exact shiftLeft_zero_eq j _ (by omega)
          (hb.of_permOn (PermOn.swap s (a := j) (b := j + 2) ⟨by omega, by omega⟩ ⟨by omega, by omega⟩)
            (by omega) le_rfl |>.mono (by omega))
      · rfl

/-- The right shift permutes `[j - 1, hi)`. -/
theorem shiftRight_permOn (less : α → α → Bool) (hi : Nat) :
    ∀ fuel (s : Slice α) j, 0 < j → PermOn (j - 1) hi s (shiftRight less hi fuel s j)
  | 0, s, _, _ => PermOn.refl _ _ _
  | fuel + 1, s, j, hj => by
    simp only [shiftRight]
    split_ifs with h
    · exact (PermOn.swap s ⟨by omega, by omega⟩ ⟨le_rfl, by omega⟩).trans
        ((shiftRight_permOn less hi fuel _ (j + 1) (by omega)).mono (by omega) le_rfl)
    · exact PermOn.refl _ _ _

/-- One round of `partialInsertionSort_func` after its scan stopped at `i`: the
swap and the two shifts permute `[a, b)` and leave `[a, i)` sorted. -/
theorem partialInsertionSort_shifts {a b i : Nat} {s : Slice α} (hai : a < i) (hib : i < b)
    (hb : Bounded key s a b) (hs : SortedOn key s a i) :
    let data := swap s i (i - 1)
    let data := if 2 ≤ i - a then shiftLeft (lessBy key) 0 data (i - 1) else data
    let data := if 2 ≤ b - i then shiftRight (lessBy key) b (b - (i + 1)) data (i + 1) else data
    PermOn a b s data ∧ SortedOn key data a i := by
  intro d₁ d₂ d₃
  have h₁ : PermOn a b s d₁ := PermOn.swap s ⟨by omega, hib⟩ ⟨by omega, by omega⟩
  have h₂ : PermOn a b d₁ d₂ ∧ SortedOn key d₂ a i := by
    by_cases hi : 2 ≤ i - a
    · simp only [d₂, if_pos hi]
      rw [shiftLeft_zero_eq (i - 1) d₁ (by omega) ((hb.of_permOn h₁ le_rfl le_rfl).mono (by omega))]
      obtain ⟨hp, hsorted⟩ := shiftLeft_spec a (i - 1) d₁ (by omega)
        ((hs.mono le_rfl (by omega)).of_permOn_outside
          (PermOn.swap s (a := i - 1) (b := i + 1) ⟨by omega, by omega⟩ ⟨le_rfl, by omega⟩) (Or.inl le_rfl))
      rw [Nat.sub_add_cancel (by omega)] at hp hsorted
      exact ⟨hp.mono le_rfl hib.le, hsorted⟩
    · simp only [d₂, if_neg hi]
      exact ⟨PermOn.refl _ _ _, sortedOn_of_le (by omega)⟩
  have h₃ : PermOn i b d₂ d₃ := by
    by_cases hi : 2 ≤ b - i
    · simp only [d₃, if_pos hi]
      exact shiftRight_permOn _ b _ d₂ (i + 1) (by omega)
    · simp only [d₃, if_neg hi]
      exact PermOn.refl _ _ _
  exact ⟨(h₁.trans h₂.1).trans (h₃.mono (by omega) le_rfl), h₂.2.of_permOn_outside h₃ (Or.inl le_rfl)⟩

/-- The loop of `partialInsertionSort_func` from `i`, with `[a, i)` sorted. -/
theorem partialInsertionSortLoop_spec {a b : Nat} :
    ∀ steps (s : Slice α) i, a < i → i ≤ b → Bounded key s a b → SortedOn key s a i →
      PermOn a b s (partialInsertionSortLoop (lessBy key) a b steps s i).1 ∧
        ((partialInsertionSortLoop (lessBy key) a b steps s i).2 = true →
          SortedOn key (partialInsertionSortLoop (lessBy key) a b steps s i).1 a b)
  | 0, s, _, _, _, _, _ => ⟨PermOn.refl _ _ _, fun h => absurd h (by simp [partialInsertionSortLoop])⟩
  | steps + 1, s, i, hai, hib, hb, hs => by
    obtain ⟨r₁, r₂, r₃, -⟩ := scanUp_spec (fun k => !lessBy key (s.get k) (s.get (k - 1))) b (b - i) i hib
      (by omega)
    simp only [partialInsertionSortLoop]
    set i' := scanUp (fun k => !lessBy key (s.get k) (s.get (k - 1))) b (b - i) i
    have hs' : SortedOn key s a i' := sortedOn_of_adjacent fun k hk hk' => by
      by_cases hki : k < i
      · exact hs (k - 1) k (by omega) (by omega) hki
      · simpa using r₃ k (by omega) hk'
    by_cases hend : i' = b
    · rw [if_pos hend]
      exact ⟨PermOn.refl _ _ _, fun _ => hend ▸ hs'⟩
    rw [if_neg hend]
    by_cases hshort : b - a < shortestShifting
    · rw [if_pos hshort]
      exact ⟨PermOn.refl _ _ _, fun h => absurd h (by simp)⟩
    · rw [if_neg hshort]
      obtain ⟨hp, hsorted⟩ := partialInsertionSort_shifts (by omega) (by omega) hb hs'
      obtain ⟨hp', hsorted'⟩ := partialInsertionSortLoop_spec steps _ i' (by omega) (by omega)
        (hb.of_permOn hp le_rfl le_rfl) hsorted
      exact ⟨hp.trans hp', hsorted'⟩

/-- `partialInsertionSort_func` permutes `data[a:b]`, and sorts it when it says
so. -/
theorem partialInsertionSort_spec {a b : Nat} (s : Slice α) (hab : a < b) (hb : Bounded key s a b) :
    PermOn a b s (partialInsertionSort (lessBy key) s a b).1 ∧
      ((partialInsertionSort (lessBy key) s a b).2 = true →
        SortedOn key (partialInsertionSort (lessBy key) s a b).1 a b) :=
  partialInsertionSortLoop_spec maxSteps s (a + 1) (by omega) hab hb (sortedOn_of_le le_rfl)

end Ofelia.Sort
