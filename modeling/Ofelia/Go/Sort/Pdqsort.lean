import Ofelia.Go.Sort.Heap
import Ofelia.Go.Sort.Partition

/-! `pdqsort_func` sorts every range it is given, and so `sort.Slice` returns a
sorted permutation of its input, for a `Less` that compares integer keys. The
proof follows the function's loop: insertion sort and heapsort finish a range;
`breakPatterns_func`, `reverseRange_func` and `partialInsertionSort_func` only
permute it (the last finishes it when it reports it sorted); and after a
partition the recursive call and the rest of the loop each sort one side of the
pivot. Every range `pdqsort_func` works on has its preceding element at most all
of it, which the equal-elements partition and the left shift of the partial
insertion sort rely on. -/

namespace Ofelia.Sort

variable {α : Type} {key : α → Int}

variable (key) in
/-- `t` is `s` with `[a, b)` sorted. -/
def SortsRange (s : Slice α) (a b : Nat) (t : Slice α) : Prop :=
  PermOn a b s t ∧ SortedOn key t a b

variable (key) in
/-- `data[mid]` is a pivot of `[a, b)`: the elements before it are smaller, and
none after it is. -/
def PivotAt (s : Slice α) (a mid b : Nat) : Prop :=
  (∀ k, a ≤ k → k < mid → key (s.get k) < key (s.get mid)) ∧
    ∀ k, mid < k → k < b → key (s.get mid) ≤ key (s.get k)

namespace PivotAt

variable {s t : Slice α} {a mid b : Nat}

theorem of_permOn_left (h : PivotAt key s a mid b) (hp : PermOn a mid s t) : PivotAt key t a mid b := by
  have hm : t.get mid = s.get mid := hp.get_eq (Or.inr le_rfl)
  refine ⟨fun k hk hk' => ?_, fun k hk hk' => ?_⟩
  · rw [hm]
    exact hp.forall_mem (P := fun x => key x < key (s.get mid)) h.1 k hk hk'
  · rw [hm, hp.get_eq (Or.inr hk.le)]
    exact h.2 k hk hk'

theorem of_permOn_right (h : PivotAt key s a mid b) (hp : PermOn (mid + 1) b s t) :
    PivotAt key t a mid b := by
  have hm : t.get mid = s.get mid := hp.get_eq (Or.inl (Nat.lt_succ_self mid))
  refine ⟨fun k hk hk' => ?_, fun k hk hk' => ?_⟩
  · rw [hm, hp.get_eq (Or.inl (by omega))]
    exact h.1 k hk hk'
  · rw [hm]
    exact hp.forall_mem (P := fun x => key (s.get mid) ≤ key x) (fun k hk hk' => h.2 k (by omega) hk') k
      hk hk'

theorem bounded_right (h : PivotAt key s a mid b) : Bounded key s (mid + 1) b :=
  fun _ k hk hk' => h.2 k (by omega) hk'

/-- Both sides of a pivot sorted is the range sorted. -/
theorem sortedOn (h : PivotAt key t a mid b) (h₁ : SortedOn key t a mid)
    (h₂ : SortedOn key t (mid + 1) b) : SortedOn key t a b :=
  (sortedOn_succ h₁ fun i hi hi' => (h.1 i hi hi').le).append h₂ fun i j _ hi hj hj' =>
    (if hi' : i < mid then (h.1 i (by omega) hi').le else by rw [show i = mid by omega]).trans
      (h.2 j (by omega) hj')

end PivotAt

variable (key) in
/-- `pdqsort_func` sorts `data[a:b]`, given more fuel than `b - a`. -/
theorem pdqsort_spec : ∀ fuel (s : Slice α) a b limit wasBalanced wasPartitioned,
    b - a < fuel → Bounded key s a b →
      SortsRange key s a b (pdqsort (lessBy key) fuel s a b limit wasBalanced wasPartitioned)
  | 0, _, _, _, _, _, _, hf, _ => absurd hf (Nat.not_lt_zero _)
  | fuel + 1, s, a, b, limit, wb, wp, hf, hb => by
    rw [pdqsort]
    by_cases hlen : b - a ≤ maxInsertion
    · rw [if_pos hlen]
      exact insertionSort_spec s a b
    rw [if_neg hlen]
    by_cases hlim : limit = 0
    · rw [if_pos hlim]
      exact heapSort_spec s a b
    rw [if_neg hlim]
    have hab : a + 13 ≤ b := by simp only [maxInsertion] at hlen; omega
    split
    next s₁ limit₁ hst₁ =>
    have h₁ : PermOn a b s s₁ := by
      split_ifs at hst₁ <;> cases hst₁
      · exact breakPatterns_permOn s a b
      · exact PermOn.refl _ _ _
    split
    next pivot hint hcp =>
    have hp₁ := choosePivot_mem (lessBy key) s₁ (a := a) (b := b) (by omega)
    rw [hcp] at hp₁
    split
    next s₂ pivot₂ hint₂ hst₂ =>
    have h₂ : PermOn a b s₁ s₂ ∧ a ≤ pivot₂ ∧ pivot₂ < b := by
      split_ifs at hst₂ <;> cases hst₂
      · exact ⟨reverseRange_permOn _ (by omega), by omega, by omega⟩
      · exact ⟨PermOn.refl _ _ _, hp₁⟩
    split
    next s₃ sorted hst₃ =>
    have h₃ : PermOn a b s₂ s₃ ∧ (sorted = true → SortedOn key s₃ a b) := by
      split_ifs at hst₃
      · have := partialInsertionSort_spec s₂ (by omega) (hb.of_permOn (h₁.trans h₂.1) le_rfl le_rfl)
        rwa [hst₃] at this
      · cases hst₃
        exact ⟨PermOn.refl _ _ _, fun h => absurd h (by simp)⟩
    have hp : PermOn a b s s₃ := h₁.trans (h₂.1.trans h₃.1)
    by_cases hsorted : sorted = true
    · rw [if_pos hsorted]
      exact ⟨hp, h₃.2 hsorted⟩
    rw [if_neg hsorted]
    split
    next heq =>
      -- all of the range is at least the pivot: it goes to the front with its equals
      split
      next midₑ sₑ hpe =>
      have hpv : key (s₃.get pivot₂) ≤ key (s₃.get (a - 1)) := by simpa using heq.2
      have e := partitionEqual_spec key s₃ h₂.2
      rw [hpe] at e
      dsimp only at e
      obtain ⟨e₁, e₂, e₃, e₄, e₅⟩ := e
      have hmin : ∀ k, a ≤ k → k < b → key (s₃.get pivot₂) ≤ key (sₑ.get k) :=
        e₃.forall_mem (P := fun x => key (s₃.get pivot₂) ≤ key x) fun k hk hk' =>
          hpv.trans (hb.of_permOn hp le_rfl le_rfl heq.1 k hk hk')
      obtain ⟨ih₁, ih₂⟩ := pdqsort_spec fuel sₑ midₑ b limit₁ wb wp (by omega)
        fun _ k hk hk' => (e₄ (midₑ - 1) (by omega) (by omega)).trans (e₅ k hk hk').le
      refine ⟨hp.trans (e₃.trans (ih₁.mono (by omega) le_rfl)), SortedOn.append ?_ ih₂ ?_⟩
      · intro i j hi hij hj
        rw [ih₁.get_eq (Or.inl hj), ih₁.get_eq (Or.inl (by omega))]
        have := e₄ i hi (by omega)
        have := e₄ j (by omega) hj
        have := hmin i hi (by omega)
        have := hmin j (by omega) (by omega)
        omega
      · intro i j hi hi' hj hj'
        rw [ih₁.get_eq (Or.inl hi')]
        exact (e₄ i hi hi').trans (ih₁.forall_mem (P := fun x => key (s₃.get pivot₂) < key x) e₅ j hj hj').le
    next =>
      split
      next mid alreadyPartitioned s₄ hpt =>
      have f := partition_spec key s₃ h₂.2
      rw [hpt] at f
      dsimp only at f
      obtain ⟨f₁, f₂, f₃, f₄, f₅, f₆⟩ := f
      have hpiv : PivotAt key s₄ a mid b := ⟨fun k hk hk' => f₄ ▸ f₅ k hk hk', fun k hk hk' => f₄ ▸ f₆ k hk hk'⟩
      have hbd : Bounded key s₄ a b := hb.of_permOn (hp.trans f₃) le_rfl le_rfl
      dsimp only
      split
      · -- the left side first, then the right side in the loop
        obtain ⟨l₁, l₂⟩ := pdqsort_spec fuel s₄ a mid limit₁ true true (by omega) (hbd.mono f₂.le)
        have hpiv₁ := hpiv.of_permOn_left l₁
        obtain ⟨r₁, r₂⟩ := pdqsort_spec fuel _ (mid + 1) b limit₁ _ alreadyPartitioned (by omega)
          hpiv₁.bounded_right
        exact ⟨hp.trans (f₃.trans ((l₁.mono le_rfl (by omega)).trans (r₁.mono (by omega) le_rfl))),
          (hpiv₁.of_permOn_right r₁).sortedOn (l₂.of_permOn_outside r₁ (Or.inl (by omega))) r₂⟩
      · -- the right side first, then the left side in the loop
        obtain ⟨r₁, r₂⟩ := pdqsort_spec fuel s₄ (mid + 1) b limit₁ true true (by omega) hpiv.bounded_right
        have hpiv₁ := hpiv.of_permOn_right r₁
        obtain ⟨l₁, l₂⟩ := pdqsort_spec fuel _ a mid limit₁ _ alreadyPartitioned (by omega)
          ((hbd.of_permOn r₁ (by omega) le_rfl).mono f₂.le)
        exact ⟨hp.trans (f₃.trans ((r₁.mono (by omega) le_rfl).trans (l₁.mono le_rfl (by omega)))),
          (hpiv₁.of_permOn_left l₁).sortedOn l₂ (r₂.of_permOn_outside l₁ (Or.inr (by omega)))⟩

variable (key) in
/-- `sort.Slice` with a `Less` that compares integer keys returns a permutation of
its input in ascending order of the keys. -/
theorem slice_perm_sorted (xs : List α) :
    (slice (lessBy key) xs).Perm xs ∧ (slice (lessBy key) xs).Pairwise fun x y => key x ≤ key y := by
  cases xs with
  | nil => simp [slice]
  | cons x xs =>
    obtain ⟨hp, hs⟩ := pdqsort_spec key ((x :: xs).length + 1) ⟨fun i => (x :: xs).getD i x⟩ 0
      (x :: xs).length (bitsLen (x :: xs).length) true true (by omega) fun h => absurd h (lt_irrefl 0)
    refine ⟨?_, hs.list_pairwise⟩
    have := hp.list_perm
    rwa [map_getD_range] at this

end Ofelia.Sort
