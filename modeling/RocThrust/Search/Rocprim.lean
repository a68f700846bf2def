import Mathlib.Order.Basic

/-! The contracts of the rocPRIM primitives behind the two-phase wrappers. A successful
run writes to `d_output` the offset the primitive's specification defines: the index of
the first match (of the last one for `find_end`), or the size of the range when there is
none. These are specifications of an external library, stated over indices; nothing here
models how the device computes them. -/
namespace RocThrust.Rocprim

variable {α β : Type*}

/-- The least `i < n` with `q i`, or `n` when there is none. -/
def firstIndex (n : ℕ) (q : ℕ → Bool) : ℕ := ((List.range n).find? q).getD n

/-- The greatest `i < b` with `q i`, if any. -/
def lastBelow (b : ℕ) (q : ℕ → Bool) : Option ℕ := (List.range b).reverse.find? q

/-- The greatest `i < n` with `q i`, or `n` when there is none. -/
def lastIndex (n : ℕ) (q : ℕ → Bool) : ℕ := (lastBelow n q).getD n

/-- The pattern `ss` occurs in `xs` at offset `i`: it fits, and `p` relates each of its
elements to the element of `xs` it lies over. -/
def occursAt (p : α → β → Bool) (xs : List α) (ss : List β) (i : ℕ) : Bool :=
  decide (∃ _ : i + ss.length ≤ xs.length, ∀ k (hk : k < ss.length), p xs[i + k] ss[k] = true)

/-- `rocprim::search`: the first occurrence of the pattern. -/
def search (p : α → β → Bool) (xs : List α) (ss : List β) : ℕ :=
  firstIndex xs.length (occursAt p xs ss)

/-- `rocprim::find_end`: the last occurrence of the pattern. -/
def findEnd (p : α → β → Bool) (xs : List α) (ss : List β) : ℕ :=
  lastIndex xs.length (occursAt p xs ss)

/-- `rocprim::search_n`: the first occurrence of `count` copies of `value`. -/
def searchN (p : α → β → Bool) (xs : List α) (count : ℕ) (value : β) : ℕ :=
  firstIndex xs.length (occursAt p xs (List.replicate count value))

/-- `rocprim::find_first_of`: the first element related to some element of the pattern. -/
def findFirstOf (p : α → β → Bool) (xs : List α) (ss : List β) : ℕ :=
  firstIndex xs.length fun i => decide (∃ _ : i < xs.length, ∃ s ∈ ss, p xs[i] s = true)

/-- `rocprim::adjacent_find`: the first element related to its successor. -/
def adjacentFind (p : α → α → Bool) (xs : List α) : ℕ :=
  firstIndex xs.length fun i => decide (∃ _ : i + 1 < xs.length, p xs[i] xs[i + 1] = true)

example : search (· == ·) [1, 2, 2, 3, 4] [2, 3] = 2 := by decide
example : findEnd (· == ·) [1, 2, 1, 2] [1, 2] = 2 := by decide

/-! ### First and last indices -/

section Indices

variable {n m : ℕ} {q : ℕ → Bool}

@[simp] theorem firstIndex_zero : firstIndex 0 q = 0 := rfl

theorem firstIndex_succ :
    firstIndex (n + 1) q = if q 0 then 0 else firstIndex n (fun i => q (i + 1)) + 1 := by
  simp only [firstIndex, List.range_succ_eq_map, List.find?_cons, List.find?_map]
  cases q 0
  · simp only [Bool.false_eq_true, ↓reduceIte, Function.comp_def, Nat.succ_eq_add_one]
    cases (List.range n).find? (fun i => q (i + 1)) <;> rfl
  · rfl

theorem firstIndex_of_forall (h : ∀ i < n, q i = false) : firstIndex n q = n := by
  induction n generalizing q with
  | zero => rfl
  | succ n ih =>
    rw [firstIndex_succ, h 0 (by omega), ih fun i hi => h (i + 1) (by omega)]
    rfl

/-- Indices below `m` that fail `q` can be skipped. -/
theorem firstIndex_skip (hm : m ≤ n) (h : ∀ i < m, q i = false) :
    firstIndex n q = m + firstIndex (n - m) (fun i => q (m + i)) := by
  induction m generalizing n q with
  | zero => simp
  | succ m ih =>
    obtain ⟨n, rfl⟩ : ∃ k, n = k + 1 := ⟨n - 1, by omega⟩
    rw [firstIndex_succ, h 0 (by omega), ih (by omega) fun i hi => h (i + 1) (by omega)]
    simp only [Bool.false_eq_true, ↓reduceIte, Nat.add_sub_add_right,
      show ∀ i, m + i + 1 = m + 1 + i from fun i => by omega]

theorem firstIndex_spec :
    (firstIndex n q < n → q (firstIndex n q) = true) ∧ ∀ j < firstIndex n q, q j = false := by
  induction n generalizing q with
  | zero => simp
  | succ n ih =>
    rw [firstIndex_succ]
    split
    · simp_all
    · rename_i h0
      refine ⟨fun h => (ih (q := fun i => q (i + 1))).1 (by omega), fun j hj => ?_⟩
      rcases j with _ | j
      · simpa using h0
      · exact (ih (q := fun i => q (i + 1))).2 j (by omega)

@[simp] theorem lastBelow_zero : lastBelow 0 q = none := rfl

theorem lastBelow_succ : lastBelow (m + 1) q = if q m then some m else lastBelow m q := by
  simp only [lastBelow, List.range_succ, List.reverse_append, List.reverse_cons,
    List.reverse_nil, List.nil_append, List.singleton_append, List.find?_cons]
  cases q m <;> rfl

/-- Indices from `m` on that fail `q` do not change the last match below. -/
theorem lastBelow_add_of_forall (h : ∀ i, m ≤ i → i < m + n → q i = false) :
    lastBelow (m + n) q = lastBelow m q := by
  induction n with
  | zero => rfl
  | succ n ih =>
    rw [← Nat.add_assoc, lastBelow_succ, h (m + n) (by omega) (by omega),
      ih fun i h1 h2 => h i h1 (by omega)]
    rfl

end Indices

/-! ### Occurrences -/

theorem occursAt_drop (p : α → β → Bool) {xs : List α} (ss : List β) {d : ℕ}
    (hd : d ≤ xs.length) (i : ℕ) : occursAt p (xs.drop d) ss i = occursAt p xs ss (d + i) := by
  simp only [occursAt, List.length_drop, List.getElem_drop, ← Nat.add_assoc]
  congr 1
  apply propext
  constructor
  · rintro ⟨h1, h2⟩; exact ⟨by omega, h2⟩
  · rintro ⟨h1, h2⟩; exact ⟨by omega, h2⟩

theorem occursAt_cons_succ (p : α → β → Bool) (x : α) (xs : List α) (ss : List β) (i : ℕ) :
    occursAt p (x :: xs) ss (i + 1) = occursAt p xs ss i := by
  rw [Nat.add_comm, ← occursAt_drop p ss (by simp : 1 ≤ (x :: xs).length)]
  rfl

theorem occursAt_of_length_lt {p : α → β → Bool} {xs : List α} {ss : List β} {i : ℕ}
    (h : xs.length < i + ss.length) : occursAt p xs ss i = false := by
  simp only [occursAt, decide_eq_false_iff_not, not_exists]
  intro h'; omega

theorem occursAt_nil (p : α → β → Bool) {xs : List α} {i : ℕ} (h : i ≤ xs.length) :
    occursAt p xs [] i = true := by
  simp [occursAt, h]

theorem occursAt_cons_cons (p : α → β → Bool) (a : α) (as : List α) (b : β) (bs : List β) :
    occursAt p (a :: as) (b :: bs) 0 = (p a b && occursAt p as bs 0) := by
  rw [Bool.eq_iff_iff]
  simp only [occursAt, Bool.and_eq_true, decide_eq_true_eq, List.length_cons, Nat.zero_add]
  constructor
  · rintro ⟨h1, h2⟩
    exact ⟨h2 0 (by omega), by omega, fun k hk => h2 (k + 1) (by omega)⟩
  · rintro ⟨h0, h1, h2⟩
    refine ⟨by omega, fun k hk => ?_⟩
    cases k with
    | zero => exact h0
    | succ k => exact h2 k (by omega)

/-- An element that fails `value` breaks every run of `count` copies over it. -/
theorem occursAt_replicate_of_not {p : α → β → Bool} {xs : List α} {c : ℕ} {v : β} {i j : ℕ}
    (hj : j < xs.length) (hij : i ≤ j) (hjc : j < i + c) (hx : p xs[j] v = false) :
    occursAt p xs (List.replicate c v) i = false := by
  simp only [occursAt, decide_eq_false_iff_not, not_exists, List.length_replicate,
    List.getElem_replicate]
  intro h1 h2
  have := h2 (j - i) (by omega)
  simp only [show i + (j - i) = j by omega] at this
  simp_all

theorem occursAt_replicate_zero {p : α → β → Bool} {xs : List α} {c : ℕ} {v : β}
    (hc : c ≤ xs.length) (h : ∀ k (hk : k < c), p xs[k] v = true) :
    occursAt p xs (List.replicate c v) 0 = true := by
  simp only [occursAt, List.length_replicate, List.getElem_replicate, Nat.zero_add,
    decide_eq_true_eq]
  exact ⟨hc, h⟩

end RocThrust.Rocprim
