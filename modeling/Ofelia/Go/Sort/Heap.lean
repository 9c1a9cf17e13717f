import Ofelia.Go.Sort.Perm

/-! `heapSort_func`, which `pdqsort_func` falls back to after too many
unbalanced partitions. The heap lives in `data[first:first+hi]`, node `c` at
`first + c` with parent `(c - 1) / 2`. `siftDown_func` repairs a heap whose only
fault is at its root; the first loop builds a heap bottom up, and the second
swaps its greatest element to the end of the range and repairs the rest, so that
the range ends sorted. -/

namespace Ofelia.Sort

variable {α : Type} {key : α → Int}

variable (key) in
/-- Every node from `lo` on other than `r` is at least each of its children. -/
def HeapExcept (s : Slice α) (first lo hi r : Nat) : Prop :=
  ∀ c, 0 < c → c < hi → lo ≤ (c - 1) / 2 → (c - 1) / 2 ≠ r →
    key (s.get (first + c)) ≤ key (s.get (first + (c - 1) / 2))

variable (key) in
/-- Every node from `lo` on is at least each of its children. -/
def Heap (s : Slice α) (first lo hi : Nat) : Prop :=
  ∀ c, 0 < c → c < hi → lo ≤ (c - 1) / 2 → key (s.get (first + c)) ≤ key (s.get (first + (c - 1) / 2))

/-- The root of a heap from `0` is its greatest element. -/
theorem Heap.root_max {s : Slice α} {first hi : Nat} (h : Heap key s first 0 hi) :
    ∀ c, c < hi → key (s.get (first + c)) ≤ key (s.get first) := by
  intro c
  induction c using Nat.strong_induction_on with
  | _ c ih =>
    intro hc
    rcases Nat.eq_zero_or_pos c with rfl | hpos
    · exact le_rfl
    · exact (h c hpos hc (Nat.zero_le _)).trans (ih _ (by omega) (by omega))

variable (key) in
/-- One step of `siftDown_func` at `root`: the greater child is at least the
other. -/
theorem greaterChild_spec (s : Slice α) (first hi root : Nat) (h : 2 * root + 1 < hi) :
    let child := if 2 * root + 1 + 1 < hi ∧
        lessBy key (s.get (first + (2 * root + 1))) (s.get (first + (2 * root + 1) + 1)) = true
      then 2 * root + 1 + 1 else 2 * root + 1
    child < hi ∧ (child - 1) / 2 = root ∧ root < child ∧
      ∀ c, c < hi → (c - 1) / 2 = root → 0 < c → key (s.get (first + c)) ≤ key (s.get (first + child)) := by
  have hc : ∀ c, (c - 1) / 2 = root → 0 < c → c = 2 * root + 1 ∨ c = 2 * root + 1 + 1 := by omega
  dsimp only
  split_ifs with hch <;> simp only [lessBy_eq_true, not_and, Bool.not_eq_true, lessBy_eq_false] at hch ⊢
  · refine ⟨hch.1, by omega, by omega, fun c hc' hp hc0 => ?_⟩
    rcases hc c hp hc0 with rfl | rfl
    · exact hch.2.le
    · exact le_rfl
  · refine ⟨h, by omega, by omega, fun c hc' hp hc0 => ?_⟩
    rcases hc c hp hc0 with rfl | rfl
    · exact le_rfl
    · exact not_lt.1 (hch hc')

/-- `siftDown_func`'s loop from `root` ends with a heap from `lo`, given a heap
from `lo` but for `root`, whose children are also at most its parent. -/
theorem siftDownLoop_spec (first lo hi : Nat) :
    ∀ fuel (s : Slice α) root, lo ≤ root → hi ≤ root + fuel → HeapExcept key s first lo hi root →
      (0 < root → lo ≤ (root - 1) / 2 → ∀ c, 0 < c → c < hi → (c - 1) / 2 = root →
        key (s.get (first + c)) ≤ key (s.get (first + (root - 1) / 2))) →
      PermOn (first + root) (first + hi) s (siftDownLoop (lessBy key) hi first fuel s root) ∧
        Heap key (siftDownLoop (lessBy key) hi first fuel s root) first lo hi
  | 0, s, root, _, hf, hh, _ => by
    refine ⟨PermOn.refl _ _ _, fun c hc hch hlo => hh c hc hch hlo (by omega)⟩
  | fuel + 1, s, root, hlo, hf, hh, hg => by
    simp only [siftDownLoop]
    by_cases hleaf : hi ≤ 2 * root + 1
    · rw [if_pos hleaf]
      exact ⟨PermOn.refl _ _ _, fun c hc hch hl => hh c hc hch hl (by omega)⟩
    rw [if_neg hleaf]
    obtain ⟨hch, hpar, hlt, hmax⟩ := greaterChild_spec key s first hi root (by omega)
    generalize (if 2 * root + 1 + 1 < hi ∧ lessBy key (s.get (first + (2 * root + 1)))
      (s.get (first + (2 * root + 1) + 1)) = true then 2 * root + 1 + 1 else 2 * root + 1) = child
      at hch hpar hlt hmax ⊢
    by_cases hstop : lessBy key (s.get (first + root)) (s.get (first + child)) = false
    · rw [if_pos hstop]
      rw [lessBy_eq_false] at hstop
      refine ⟨PermOn.refl _ _ _, fun c hc hch' hl => ?_⟩
      by_cases hr : (c - 1) / 2 = root
      · rw [hr]
        exact (hmax c hch' hr hc).trans hstop
      · exact hh c hc hch' hl hr
    rw [if_neg hstop]
    simp only [Bool.not_eq_false, lessBy_eq_true] at hstop
    refine (fun h => ⟨(PermOn.swap s ⟨le_rfl, by omega⟩ ⟨by omega, by omega⟩).trans
      (h.1.mono (by omega) le_rfl), h.2⟩) (siftDownLoop_spec first lo hi fuel _ child (by omega) (by omega)
        (fun c hc hch' hl hne => ?_) (fun _ hl c hc hch' hp => ?_))
    · by_cases hcr : c = root
      · subst hcr
        simp only [swap_get, Nat.add_left_cancel_iff, eq_self_iff_true, if_true,
          show (c - 1) / 2 ≠ c by omega, show (c - 1) / 2 ≠ child by omega, if_false]
        exact hg hc hl child (by omega) hch hpar
      by_cases hcc : c = child
      · subst hcc
        simp only [swap_get, Nat.add_left_cancel_iff, hcr, if_false, eq_self_iff_true, if_true, hpar]
        exact hstop.le
      by_cases hpr : (c - 1) / 2 = root
      · simp only [swap_get, Nat.add_left_cancel_iff, hcr, hcc, hpr, if_false, eq_self_iff_true, if_true]
        exact hmax c hch' hpr hc
      · simp only [swap_get, Nat.add_left_cancel_iff, hcr, hcc, hpr, hne, if_false]
        exact hh c hc hch' hl hpr
    · simp only [swap_get, Nat.add_left_cancel_iff, hpar, show c ≠ root by omega, show c ≠ child by omega,
        if_false, eq_self_iff_true, if_true]
      have := hh c (by omega) hch' (by omega) (by omega)
      rwa [hp] at this

variable (key) in
/-- `siftDown_func` at `root` with the heap from `root` but for `root`. -/
theorem siftDown_spec (s : Slice α) (first root hi : Nat) (hh : HeapExcept key s first root hi root) :
    PermOn (first + root) (first + hi) s (siftDown (lessBy key) s root hi first) ∧
      Heap key (siftDown (lessBy key) s root hi first) first root hi :=
  siftDownLoop_spec first root hi (hi - root) s root le_rfl (by omega) hh fun h h' => absurd h' (by omega)

variable (key) in
/-- The first loop of `heapSort_func` over `m - 1, …, 0` builds a heap from `0`. -/
theorem heapify_spec (first hi : Nat) :
    ∀ m (s : Slice α), Heap key s first m hi →
      PermOn first (first + hi) s
          ((List.range m).reverse.foldl (fun data i => siftDown (lessBy key) data i hi first) s) ∧
        Heap key ((List.range m).reverse.foldl (fun data i => siftDown (lessBy key) data i hi first) s)
          first 0 hi
  | 0, s, h => ⟨PermOn.refl _ _ _, h⟩
  | m + 1, s, h => by
    rw [List.range_succ, List.reverse_append, List.reverse_singleton, List.singleton_append,
      List.foldl_cons]
    obtain ⟨hp, hh⟩ := siftDown_spec key s first m hi fun c hc hch hl hne => h c hc hch (by omega)
    obtain ⟨hp', hh'⟩ := heapify_spec first hi m _ hh
    exact ⟨(hp.mono (by omega) le_rfl).trans hp', hh'⟩

variable (key) in
/-- The second loop of `heapSort_func` over `m - 1, …, 0`: with a heap on
`[0, m)` below a sorted rest of the range, it sorts the whole range. -/
theorem heapExtract_spec (first hi : Nat) :
    ∀ m (s : Slice α), m ≤ hi → Heap key s first 0 m → SortedOn key s (first + m) (first + hi) →
      (∀ i j, first ≤ i → i < first + m → first + m ≤ j → j < first + hi →
        key (s.get i) ≤ key (s.get j)) →
      PermOn first (first + hi) s ((List.range m).reverse.foldl
          (fun data i => siftDown (lessBy key) (swap data first (first + i)) 0 i first) s) ∧
        SortedOn key ((List.range m).reverse.foldl
          (fun data i => siftDown (lessBy key) (swap data first (first + i)) 0 i first) s) first (first + hi)
  | 0, s, _, _, hs, _ => ⟨PermOn.refl _ _ _, hs⟩
  | m + 1, s, hm, hh, hs, hc => by
    rw [List.range_succ, List.reverse_append, List.reverse_singleton, List.singleton_append,
      List.foldl_cons]
    have hsw : PermOn first (first + m + 1) s (swap s first (first + m)) :=
      PermOn.swap s ⟨le_rfl, by omega⟩ ⟨by omega, by omega⟩
    obtain ⟨hp, hh'⟩ := siftDown_spec key (swap s first (first + m)) first 0 m fun c hc hch _ hne => by
        simp only [swap_get, show first + c ≠ first by omega, show first + c ≠ first + m by omega,
          show first + (c - 1) / 2 ≠ first by omega, show first + (c - 1) / 2 ≠ first + m by omega, if_false]
        exact hh c hc (by omega) (Nat.zero_le _)
    rw [Nat.add_zero] at hp
    set t := siftDown (lessBy key) (swap s first (first + m)) 0 m first
    have hroot := hh.root_max
    -- what `t` holds at `first + m` and beyond
    have hm' : t.get (first + m) = s.get first := by
      rw [hp.get_eq (Or.inr le_rfl), swap_get]
      split_ifs with h₁ h₂ <;> first | rfl | rw [h₁] | exact absurd rfl h₂
    have hbelow : ∀ k, first ≤ k → k < first + m → key (t.get k) ≤ key (s.get first) :=
      hp.forall_mem (P := fun x => key x ≤ key (s.get first)) fun k hk hk' => by
        simp only [swap_get]
        split_ifs with h₁ h₂
        · exact hroot m (by omega)
        · omega
        · exact hroot (k - first) (by omega) |>.trans_eq' (by rw [Nat.add_sub_cancel' hk])
    have habove : ∀ j, first + m < j → j < first + hi → key (s.get first) ≤ key (t.get j) := by
      intro j hj hj'
      rw [hp.get_eq (Or.inr hj.le)]
      simp only [swap_get, show j ≠ first by omega, show j ≠ first + m by omega, if_false]
      exact hc first j le_rfl (by omega) (by omega) hj'
    refine (fun h => ⟨(hsw.mono le_rfl (by omega)).trans ((hp.mono le_rfl (by omega)).trans h.1), h.2⟩)
      (heapExtract_spec first hi m t (by omega) hh' ?_ ?_)
    · refine sortedOn_of_adjacent fun k hk hk' => ?_
      by_cases hkm : k = first + m + 1
      · rw [hkm, Nat.add_sub_cancel, hm']
        exact habove _ (by omega) (by omega)
      · rw [hp.get_eq (Or.inr (by omega)), hp.get_eq (Or.inr (by omega))]
        simp only [swap_get, show k ≠ first by omega, show k ≠ first + m by omega,
          show k - 1 ≠ first by omega, show k - 1 ≠ first + m by omega, if_false]
        exact hs (k - 1) k (by omega) (by omega) hk'
    · intro i j hi hi' hj hj'
      refine (hbelow i hi hi').trans ?_
      rcases Nat.eq_or_lt_of_le hj with rfl | hj
      · rw [hm']
      · exact habove j hj hj'

/-- `heapSort_func` sorts `data[a:b]`. -/
theorem heapSort_spec (s : Slice α) (a b : Nat) :
    PermOn a b s (heapSort (lessBy key) s a b) ∧ SortedOn key (heapSort (lessBy key) s a b) a b := by
  by_cases hab : a ≤ b
  · have h₁ := heapify_spec key a (b - a) ((b - a - 1) / 2 + 1) s fun c hc hch hl => by omega
    obtain ⟨h₂, h₃⟩ := heapExtract_spec key a (b - a) (b - a) _ le_rfl h₁.2 (sortedOn_of_le (by omega))
      fun i j _ _ hj hj' => absurd hj' (by omega)
    rw [Nat.add_sub_cancel' hab] at h₁ h₂ h₃
    exact ⟨h₁.1.trans h₂, h₃⟩
  · simp only [heapSort, show b - a = 0 by omega]
    exact ⟨PermOn.refl _ _ _, sortedOn_of_le (by omega)⟩

end Ofelia.Sort
