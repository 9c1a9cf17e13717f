import Ofelia.Go.Sort.Insertion

/-! The partitions of `pdqsort_func` and what happens to a range before one:
`breakPatterns_func` and `reverseRange_func` only permute it, and
`choosePivot_func` picks an index inside it. `partition_func` leaves the pivot
at the returned index with the smaller elements before it and the others after
it; `partitionEqual_func` moves the elements at most the pivot to the front.
Both run the same crossing loop, `crossLoop`, whose one statement serves both. -/

namespace Ofelia.Sort

variable {α : Type} {key : α → Int}

/-- `scanDown` stops at the first index from `j` down that fails `p`, or just
below `lo`. -/
theorem scanDown_spec (p : Nat → Bool) (lo : Nat) (hlo : 0 < lo) :
    ∀ fuel j, lo ≤ j + 1 → j + 1 ≤ lo + fuel →
      scanDown p lo fuel j ≤ j ∧ lo ≤ scanDown p lo fuel j + 1 ∧
        (∀ k, scanDown p lo fuel j < k → k ≤ j → p k = true) ∧
        (lo ≤ scanDown p lo fuel j → p (scanDown p lo fuel j) = false)
  | 0, j, h₁, h₂ => by
    simp only [scanDown]
    exact ⟨le_rfl, h₁, fun k h h' => absurd h' (by omega), fun h => absurd h (by omega)⟩
  | fuel + 1, j, h₁, h₂ => by
    simp only [scanDown]
    split_ifs with h
    · obtain ⟨r₁, r₂, r₃, r₄⟩ := scanDown_spec p lo hlo fuel (j - 1) (by omega) (by omega)
      refine ⟨by omega, r₂, fun k hk hk' => ?_, r₄⟩
      rcases Nat.eq_or_lt_of_le hk' with rfl | hk'
      · exact h.2
      · exact r₃ k hk (by omega)
    · refine ⟨le_rfl, h₁, fun k h h' => absurd h' (by omega), fun hl => ?_⟩
      simpa [hl] using h

/-! ### The crossing loop -/

section Cross

variable (q : α → Bool) (left right : Slice α → Nat → Bool) {a : Nat} (b : Nat) {pv : α}

variable (a) in
/-- What `crossLoop` from `i` and `j` on `s` ends with: the indices have crossed,
the elements after `a` and before the new `i` are accepted by `q` and those after
the new `j` and before `b` rejected, and only `[i, j]` has been permuted. -/
def Crossed (i j : Nat) (s : Slice α) (r : Nat × Nat × Slice α) : Prop :=
  PermOn i (j + 1) s r.2.2 ∧ r.2.1 + 1 = r.1 ∧ i ≤ r.1 ∧ r.1 ≤ j + 1 ∧
    (∀ k, a < k → k < r.1 → q (r.2.2.get k) = true) ∧ ∀ k, r.2.1 < k → k < b → q (r.2.2.get k) = false

/-- `crossLoop` from `i` and `j`, with the elements after `a` and before `i`
accepted by `q` and those after `j` rejected, keeps that split as `i` and `j`
cross. The predicates read `q` of an element, given the pivot `pv` at `a`. -/
theorem crossLoop_spec (hl : ∀ d : Slice α, d.get a = pv → ∀ k, left d k = q (d.get k))
    (hr : ∀ d : Slice α, d.get a = pv → ∀ k, right d k = !q (d.get k)) (fuel : Nat) :
    ∀ (s : Slice α) i j, s.get a = pv → a < i → i ≤ j + 1 → j < b → j + 1 ≤ i + fuel →
      (∀ k, a < k → k < i → q (s.get k) = true) → (∀ k, j < k → k < b → q (s.get k) = false) →
      Crossed q a b i j s (crossLoop left right fuel s i j) := by
  induction fuel with
  | zero =>
    intro s i j _ _ h₁ _ h₂ hlo hhi
    exact ⟨PermOn.refl _ _ _, show j + 1 = i by omega, le_rfl, h₁, hlo, hhi⟩
  | succ fuel ih =>
    intro s i j hs hai h₁ hjb h₂ hlo hhi
    obtain ⟨u₁, u₂, u₃, u₄⟩ := scanUp_spec (left s) (j + 1) (j + 1 - i) i h₁ (by omega)
    simp only [hl s hs] at u₃ u₄
    simp only [crossLoop]
    generalize scanUp (left s) (j + 1) (j + 1 - i) i = i' at u₁ u₂ u₃ u₄ ⊢
    obtain ⟨d₁, d₂, d₃, d₄⟩ := scanDown_spec (right s) i' (by omega) (j + 1 - i') j (by omega) (by omega)
    simp only [hr s hs, Bool.not_eq_true'] at d₃ d₄
    generalize scanDown (right s) i' (j + 1 - i') j = j' at d₁ d₂ d₃ d₄ ⊢
    have hlo' : ∀ k, a < k → k < i' → q (s.get k) = true := fun k hk hk' =>
      if h : k < i then hlo k hk h else u₃ k (by omega) hk'
    have hhi' : ∀ k, j' < k → k < b → q (s.get k) = false := fun k hk hk' =>
      if h : j < k then hhi k h hk' else d₃ k hk (by omega)
    by_cases hx : j' < i'
    · rw [if_pos hx]
      exact ⟨PermOn.refl _ _ _, show j' + 1 = i' by omega, u₁, u₂, hlo', hhi'⟩
    rw [if_neg hx]
    have hqi : q (s.get i') = false := u₄ (by omega)
    have hqj : q (s.get j') = true := by simpa using d₄ (by omega)
    have hij : i' < j' := lt_of_le_of_ne (by omega) fun h => by rw [h, hqj] at hqi; exact absurd hqi (by simp)
    have hsw : PermOn i' (j' + 1) s (swap s i' j') := PermOn.swap s ⟨le_rfl, by omega⟩ ⟨by omega, by omega⟩
    obtain ⟨p₁, p₂, p₃, p₄, p₅, p₆⟩ := ih (swap s i' j') (i' + 1) (j' - 1)
      (by rw [hsw.get_eq (Or.inl (by omega))]; exact hs) (by omega) (by omega) (by omega) (by omega)
      (fun k hk hk' => by
        simp only [swap_get]
        split_ifs with h₁' h₂'
        · exact hqj
        · omega
        · exact hlo' k hk (by omega))
      (fun k hk hk' => by
        simp only [swap_get]
        split_ifs with h₁' h₂'
        · omega
        · exact hqi
        · exact hhi' k (by omega) hk')
    exact ⟨(hsw.mono (by omega) (by omega)).trans (p₁.mono (by omega) (by omega)), p₂, by omega, by omega,
      p₅, p₆⟩

end Cross

/-! ### Partitions -/

/-- `partition_func` is the crossing loop from `a + 1` and `b - 1` after the
pivot is swapped to `a`, and a last swap of the pivot into place. -/
theorem partition_eq (less : α → α → Bool) (s : Slice α) {a b : Nat} (pivot : Nat) (hb : 0 < b) :
    let left := fun (data : Slice α) k => less (data.get k) (data.get a)
    let right := fun (data : Slice α) k => !less (data.get k) (data.get a)
    let r := crossLoop left right (b - a + 1) (swap s a pivot) (a + 1) (b - 1)
    (partition less s a b pivot).1 = r.2.1 ∧ (partition less s a b pivot).2.2 = swap r.2.2 r.2.1 a := by
  simp only [partition, crossLoop, Nat.sub_add_cancel hb]
  split_ifs <;> exact ⟨rfl, rfl⟩

variable (key) in
/-- `partition_func` around `data[pivot]`: the pivot ends at the returned index
`mid`, every element before it in `[a, mid)` is smaller and every element after
it in `(mid, b)` at least as large. -/
theorem partition_spec (s : Slice α) {a b pivot : Nat} (hp : a ≤ pivot ∧ pivot < b) :
    let r := partition (lessBy key) s a b pivot
    a ≤ r.1 ∧ r.1 < b ∧ PermOn a b s r.2.2 ∧ r.2.2.get r.1 = s.get pivot ∧
      (∀ k, a ≤ k → k < r.1 → key (r.2.2.get k) < key (s.get pivot)) ∧
      (∀ k, r.1 < k → k < b → key (s.get pivot) ≤ key (r.2.2.get k)) := by
  obtain ⟨e₁, e₂⟩ := partition_eq (lessBy key) s pivot (show 0 < b by omega)
  dsimp only
  rw [e₁, e₂]
  have hsw : PermOn a b s (swap s a pivot) := PermOn.swap s ⟨le_rfl, by omega⟩ hp
  have hpv : (swap s a pivot).get a = s.get pivot := by simp
  obtain ⟨c₁, c₂, c₃, c₄, c₅, c₆⟩ := crossLoop_spec (fun x => lessBy key x (s.get pivot))
    (fun (data : Slice α) k => lessBy key (data.get k) (data.get a))
    (fun (data : Slice α) k => !lessBy key (data.get k) (data.get a)) b
    (fun d hd k => by simp only [hd]) (fun d hd k => by simp only [hd]) (b - a + 1) (swap s a pivot) (a + 1) (b - 1) hpv
    (by omega) (by omega) (by omega) (by omega) (fun k hk hk' => absurd hk' (by omega))
    (fun k hk hk' => absurd hk' (by omega))
  set c := crossLoop (fun (data : Slice α) k => lessBy key (data.get k) (data.get a))
    (fun data k => !lessBy key (data.get k) (data.get a)) (b - a + 1) (swap s a pivot) (a + 1) (b - 1)
  rw [Nat.sub_add_cancel (by omega)] at c₁
  have hca : c.2.2.get a = s.get pivot := by rw [c₁.get_eq (Or.inl (by omega)), hpv]
  refine ⟨by omega, by omega, hsw.trans ((c₁.mono (by omega) le_rfl).trans
    (PermOn.swap _ ⟨by omega, by omega⟩ ⟨le_rfl, by omega⟩)), by simp [hca], fun k hk hk' => ?_,
    fun k hk hk' => ?_⟩
  · simp only [swap_get, show k ≠ c.2.1 by omega, if_false]
    split_ifs with h
    · simpa using c₅ c.2.1 (by omega) (by omega)
    · simpa using c₅ k (by omega) (by omega)
  · simp only [swap_get, show k ≠ c.2.1 by omega, show k ≠ a by omega, if_false]
    simpa using c₆ k hk hk'

theorem partitionEqual_eq (less : α → α → Bool) (s : Slice α) (a b pivot : Nat) :
    partitionEqual less s a b pivot =
      let r := crossLoop (fun (data : Slice α) k => !less (data.get a) (data.get k))
        (fun (data : Slice α) k => less (data.get a) (data.get k)) (b - a) (swap s a pivot) (a + 1) (b - 1)
      (r.1, r.2.2) :=
  rfl

variable (key) in
/-- `partitionEqual_func` around `data[pivot]`: the elements of `[a, mid)` are at
most the pivot and those of `[mid, b)` greater. -/
theorem partitionEqual_spec (s : Slice α) {a b pivot : Nat} (hp : a ≤ pivot ∧ pivot < b) :
    let r := partitionEqual (lessBy key) s a b pivot
    a < r.1 ∧ r.1 ≤ b ∧ PermOn a b s r.2 ∧
      (∀ k, a ≤ k → k < r.1 → key (r.2.get k) ≤ key (s.get pivot)) ∧
      (∀ k, r.1 ≤ k → k < b → key (s.get pivot) < key (r.2.get k)) := by
  rw [partitionEqual_eq]
  dsimp only
  have hsw : PermOn a b s (swap s a pivot) := PermOn.swap s ⟨le_rfl, by omega⟩ hp
  have hpv : (swap s a pivot).get a = s.get pivot := by simp
  obtain ⟨c₁, c₂, c₃, c₄, c₅, c₆⟩ := crossLoop_spec (fun x => !lessBy key (s.get pivot) x)
    (fun (data : Slice α) k => !lessBy key (data.get a) (data.get k))
    (fun (data : Slice α) k => lessBy key (data.get a) (data.get k)) b
    (fun d hd k => by simp only [hd]) (fun d hd k => by simp only [hd, Bool.not_not]) (b - a) (swap s a pivot) (a + 1)
    (b - 1) hpv (by omega) (by omega) (by omega) (by omega) (fun k hk hk' => absurd hk' (by omega))
    (fun k hk hk' => absurd hk' (by omega))
  rw [Nat.sub_add_cancel (by omega)] at c₁ c₄
  have hca := c₁.get_eq (k := a) (Or.inl (by omega))
  refine ⟨by omega, c₄, hsw.trans (c₁.mono (by omega) le_rfl), fun k hk hk' => ?_, fun k hk hk' => ?_⟩
  · rcases Nat.eq_or_lt_of_le hk with rfl | hk
    · rw [hca, hpv]
    · simpa using c₅ k hk hk'
  · simpa using c₆ k (by omega) hk'

/-! ### Choosing a pivot -/

theorem order2_mem (less : α → α → Bool) (s : Slice α) (a b swaps : Nat) :
    ((order2 less s a b swaps).1 = a ∧ (order2 less s a b swaps).2.1 = b) ∨
      ((order2 less s a b swaps).1 = b ∧ (order2 less s a b swaps).2.1 = a) := by
  unfold order2
  split_ifs <;> simp

/-- `median_func` returns one of its three indices. -/
theorem median_mem (less : α → α → Bool) (s : Slice α) (a b c swaps : Nat) :
    (median less s a b c swaps).1 = a ∨ (median less s a b c swaps).1 = b ∨
      (median less s a b c swaps).1 = c := by
  unfold median
  rcases order2_mem less s a b swaps with ⟨h₁, h₂⟩ | ⟨h₁, h₂⟩ <;>
  · generalize order2 less s a b swaps = r₁ at h₁ h₂
    obtain ⟨x₁, y₁, w₁⟩ := r₁
    simp only at h₁ h₂ ⊢
    subst h₁ h₂
    rcases order2_mem less s y₁ c w₁ with ⟨h₃, h₄⟩ | ⟨h₃, h₄⟩ <;>
    · generalize order2 less s y₁ c w₁ = r₂ at h₃ h₄
      obtain ⟨x₂, y₂, w₂⟩ := r₂
      simp only at h₃ h₄ ⊢
      subst h₃ h₄
      rcases order2_mem less s x₁ x₂ w₂ with ⟨h₅, h₆⟩ | ⟨h₅, h₆⟩ <;>
      · generalize order2 less s x₁ x₂ w₂ = r₃ at h₅ h₆
        obtain ⟨x₃, y₃, w₃⟩ := r₃
        simp only at h₅ h₆ ⊢
        omega

/-- A median of three indices of `[lo, hi)` is in `[lo, hi)`. -/
theorem median_between (less : α → α → Bool) (s : Slice α) (lo hi x y z swaps : Nat)
    (hx : lo ≤ x ∧ x < hi) (hy : lo ≤ y ∧ y < hi) (hz : lo ≤ z ∧ z < hi) :
    lo ≤ (median less s x y z swaps).1 ∧ (median less s x y z swaps).1 < hi := by
  rcases median_mem less s x y z swaps with h | h | h <;> rw [h] <;> assumption

/-- The median of an index and its two neighbours, all in `[lo, hi)`, is in `[lo, hi)`. -/
theorem medianAdjacent_between (less : α → α → Bool) (s : Slice α) (lo hi x swaps : Nat)
    (hx : lo < x ∧ x + 1 < hi) :
    lo ≤ (medianAdjacent less s x swaps).1 ∧ (medianAdjacent less s x swaps).1 < hi :=
  median_between less s lo hi _ _ _ swaps ⟨by omega, by omega⟩ ⟨by omega, by omega⟩ ⟨by omega, by omega⟩

/-- `choosePivot_func` picks an index inside a range of at least eight. -/
theorem choosePivot_mem (less : α → α → Bool) (s : Slice α) {a b : Nat} (h : a + 8 ≤ b) :
    a ≤ (choosePivot less s a b).1 ∧ (choosePivot less s a b).1 < b := by
  unfold choosePivot
  dsimp only
  rw [if_pos (show 8 ≤ b - a by omega)]
  have hq : 2 ≤ (b - a) / 4 ∧ a + (b - a) / 4 * 3 + 1 < b := by omega
  generalize (b - a) / 4 = q at hq ⊢
  split_ifs
  · rcases h₁ : medianAdjacent less s (a + q * 1) 0 with ⟨i, w₁⟩
    rcases h₂ : medianAdjacent less s (a + q * 2) w₁ with ⟨j, w₂⟩
    rcases h₃ : medianAdjacent less s (a + q * 3) w₂ with ⟨k, w₃⟩
    have e₁ := medianAdjacent_between less s a b (a + q * 1) 0 (by omega)
    have e₂ := medianAdjacent_between less s a b (a + q * 2) w₁ (by omega)
    have e₃ := medianAdjacent_between less s a b (a + q * 3) w₂ (by omega)
    rw [h₁] at e₁
    rw [h₂] at e₂
    rw [h₃] at e₃
    exact median_between less s a b i j k w₃ e₁ e₂ e₃
  · exact median_between less s a b _ _ _ 0 ⟨by omega, by omega⟩ ⟨by omega, by omega⟩ ⟨by omega, by omega⟩

/-! ### Reversing and breaking patterns -/

/-- The loop of `reverseRange_func` swaps only inside `[a, b)`. -/
theorem reverseRangeLoop_permOn {a b : Nat} :
    ∀ fuel (s : Slice α) i j, a ≤ i → j < b → PermOn a b s (reverseRangeLoop fuel s i j)
  | 0, s, _, _, _, _ => PermOn.refl _ _ _
  | fuel + 1, s, i, j, hi, hj => by
    simp only [reverseRangeLoop]
    split_ifs with h
    · exact (PermOn.swap s ⟨hi, by omega⟩ ⟨by omega, hj⟩).trans
        (reverseRangeLoop_permOn fuel _ (i + 1) (j - 1) (by omega) (by omega))
    · exact PermOn.refl _ _ _

theorem reverseRange_permOn (s : Slice α) {a b : Nat} (h : a < b) : PermOn a b s (reverseRange s a b) :=
  reverseRangeLoop_permOn _ s a (b - 1) le_rfl (by omega)

@[simp] theorem bitsLenLoop_zero (fuel : Nat) : bitsLenLoop fuel 0 = 0 := by
  cases fuel <;> rfl

/-- `bits.Len`: `x` fits in `bitsLen x` bits, and no fewer. -/
theorem bitsLenLoop_spec : ∀ fuel x, x ≤ fuel →
    x < 2 ^ bitsLenLoop fuel x ∧ (0 < x → 2 ^ bitsLenLoop fuel x ≤ 2 * x)
  | 0, x, h => by simp only [bitsLenLoop, pow_zero]; omega
  | fuel + 1, x, h => by
    simp only [bitsLenLoop]
    split_ifs with hx
    · simp only [pow_zero]; omega
    · obtain ⟨h₁, h₂⟩ := bitsLenLoop_spec fuel (x / 2) (by omega)
      rw [pow_succ]
      rcases Nat.eq_zero_or_pos (x / 2) with h₀ | h₀
      · rw [h₀, bitsLenLoop_zero, pow_zero] at h₁ ⊢
        omega
      · have := h₂ h₀
        omega

theorem nextPowerOfTwo_spec {x : Nat} (h : 0 < x) : x < nextPowerOfTwo x ∧ nextPowerOfTwo x ≤ 2 * x :=
  ⟨(bitsLenLoop_spec x x le_rfl).1, (bitsLenLoop_spec x x le_rfl).2 h⟩

/-- A fold whose every step permutes `[a, b)` permutes `[a, b)`. -/
theorem permOn_foldl {β γ : Type} {a b : Nat} {s : Slice α} (f : β × Slice α → γ → β × Slice α)
    (P : γ → Prop) (hf : ∀ st x, P x → PermOn a b s st.2 → PermOn a b s (f st x).2) :
    ∀ (l : List γ) st, (∀ x ∈ l, P x) → PermOn a b s st.2 → PermOn a b s (l.foldl f st).2
  | [], _, _, h => h
  | x :: l, st, hl, h =>
    permOn_foldl f P hf l _ (fun y hy => hl y (List.mem_cons_of_mem x hy))
      (hf st x (hl x (List.mem_cons_self x l)) h)

/-- `breakPatterns_func` swaps only inside `[a, b)`. -/
theorem breakPatterns_permOn (s : Slice α) (a b : Nat) : PermOn a b s (breakPatterns s a b) := by
  unfold breakPatterns
  dsimp only
  split_ifs with h
  · have hmod := nextPowerOfTwo_spec (x := b - a) (by omega)
    refine permOn_foldl _ (· < 3) (fun st i hi hp => ?_) _ _ (fun i hi => List.mem_range.1 hi)
      (PermOn.refl _ _ _)
    have hlt : (xorshiftNext st.1).toNat &&& (nextPowerOfTwo (b - a) - 1) < nextPowerOfTwo (b - a) := by
      unfold nextPowerOfTwo at hmod ⊢
      exact Nat.and_lt_two_pow _ (by omega)
    refine hp.trans (PermOn.swap _ ⟨by omega, by omega⟩ ⟨by omega, ?_⟩)
    split_ifs <;> omega
  · exact PermOn.refl _ _ _

end Ofelia.Sort
