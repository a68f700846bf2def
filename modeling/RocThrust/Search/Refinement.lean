import RocThrust.Search.Host
import RocThrust.Search.Rocprim

/-! The sequential loops of the host fallback compute the offsets that the rocPRIM
contracts specify, on every input. -/
namespace RocThrust.Host
open Rocprim

variable {α β : Type*}

theorem scan_matched_iff (p : α → β → Bool) (xs : List α) (ss : List β) :
    scan p xs ss = .matched ↔ occursAt p xs ss 0 = true := by
  induction ss generalizing xs with
  | nil => simp [scan, occursAt_nil]
  | cons b bs ih =>
    cases xs with
    | nil => simp [scan, occursAt_of_length_lt]
    | cons a as =>
      rw [occursAt_cons_cons, scan]
      cases p a b <;> simp [ih]

theorem length_lt_of_scan_exhausted {p : α → β → Bool} {xs : List α} {ss : List β}
    (h : scan p xs ss = .exhausted) : xs.length < ss.length := by
  induction ss generalizing xs with
  | nil => simp [scan] at h
  | cons b bs ih =>
    cases xs with
    | nil => simp
    | cons a as =>
      rw [scan] at h
      split at h
      · simpa using ih h
      · cases h

/-- `std::search` returns the first occurrence that `rocprim::search` specifies. -/
theorem search_eq (p : α → β → Bool) (ss : List β) (xs : List α) :
    search p ss xs = Rocprim.search p xs ss := by
  induction xs with
  | nil => rfl
  | cons x t ih =>
    rw [Rocprim.search, List.length_cons, firstIndex_succ]
    simp only [occursAt_cons_succ]
    rw [← Rocprim.search, search]
    rcases h : scan p (x :: t) ss
    · simp [(scan_matched_iff p _ _).mp h]
    · have hl := length_lt_of_scan_exhausted h
      simp only [List.length_cons] at hl
      rw [occursAt_of_length_lt (by simp; omega), Rocprim.search,
        firstIndex_of_forall fun i _ => occursAt_of_length_lt (by omega)]
      rfl
    · have h0 : occursAt p (x :: t) ss 0 = false := by
        rw [← Bool.not_eq_true, ← scan_matched_iff, h]
        simp
      rw [h0, ih]
      rfl

/-- `std::find_first_of` returns the first element that `rocprim::find_first_of` specifies. -/
theorem findFirstOf_eq (p : α → β → Bool) (ss : List β) (xs : List α) :
    findFirstOf p ss xs = Rocprim.findFirstOf p xs ss := by
  induction xs with
  | nil => rfl
  | cons x t ih =>
    simp only [findFirstOf, ih, Rocprim.findFirstOf, List.length_cons, firstIndex_succ]
    simp [List.any_eq_true]

/-- `std::adjacent_find` returns the first pair that `rocprim::adjacent_find` specifies. -/
theorem adjacentFind_eq (p : α → α → Bool) (xs : List α) :
    adjacentFind p xs = Rocprim.adjacentFind p xs := by
  induction xs with
  | nil => rfl
  | cons x t ih =>
    cases t with
    | nil => simp [adjacentFind, Rocprim.adjacentFind, firstIndex_succ]
    | cons y t =>
      simp only [adjacentFind, ih, Rocprim.adjacentFind, List.length_cons, firstIndex_succ]
      simp

section SearchN
variable (p : α → β → Bool) {c : ℕ} {v : β}

/-- A run of `c + 1` copies starts at the head exactly when the head and the next `c`
elements match. -/
theorem searchN_cons (x : α) (t : List α) :
    Rocprim.searchN p (x :: t) (c + 1) v =
      if p x v && occursAt p t (List.replicate c v) 0 then 0
      else Rocprim.searchN p t (c + 1) v + 1 := by
  rw [Rocprim.searchN, List.length_cons, firstIndex_succ, List.replicate_succ,
    occursAt_cons_cons]
  simp only [occursAt_cons_succ, ← List.replicate_succ]
  rfl

/-- A failing element after a stretch `w` shorter than a run rules out every run that
starts in `w` or at it. -/
theorem searchN_append_of_not {w t : List α} {x : α} (hw : w.length ≤ c) (hx : p x v = false) :
    Rocprim.searchN p (w ++ x :: t) (c + 1) v = w.length + 1 + Rocprim.searchN p t (c + 1) v := by
  have hlen : (w ++ x :: t).length = w.length + 1 + t.length := by simp; omega
  have hdrop : (w ++ x :: t).drop (w.length + 1) = t := by rw [List.drop_append]; rfl
  have hocc : ∀ i, occursAt p (w ++ x :: t) (List.replicate (c + 1) v) (w.length + 1 + i) =
      occursAt p t (List.replicate (c + 1) v) i := fun i => by
    rw [← occursAt_drop p _ (by omega : w.length + 1 ≤ (w ++ x :: t).length), hdrop]
  have hx' : ∀ (h : w.length < (w ++ x :: t).length), p (w ++ x :: t)[w.length] v = false :=
    fun h => by rw [List.getElem_append_right (by omega)]; simpa using hx
  have hbreak : ∀ i < w.length + 1,
      occursAt p (w ++ x :: t) (List.replicate (c + 1) v) i = false := fun i hi =>
    occursAt_replicate_of_not (j := w.length) (by omega) (by omega) (by omega) (hx' (by omega))
  rw [Rocprim.searchN, firstIndex_skip (by omega) hbreak]
  simp only [hocc, hlen, Nat.add_sub_cancel_left]
  rfl

/-- `w` and `x` all matching, with at least `c + 1` elements, are a run at `0`. -/
theorem searchN_append_of_run {w t : List α} {x : α} (hall : ∀ a ∈ w, p a v = true)
    (hx : p x v = true) (hc : c ≤ w.length) : Rocprim.searchN p (w ++ x :: t) (c + 1) v = 0 := by
  have hQ : occursAt p (w ++ x :: t) (List.replicate (c + 1) v) 0 = true :=
    occursAt_replicate_zero (by simp; omega) fun k hk => by
      rcases Nat.lt_or_ge k w.length with hk' | hk'
      · rw [List.getElem_append_left hk']
        exact hall _ (List.getElem_mem _)
      · rw [List.getElem_append_right hk']
        simpa [show k - w.length = 0 by omega] using hx
  rw [Rocprim.searchN, show (w ++ x :: t).length = w.length + t.length + 1 by simp; omega,
    firstIndex_succ, if_pos hQ]

/-- Loop invariant of `std::search_n`: from the outer loop the result is the first run
in the rest; inside the inner loop, after `cur < count` matching elements `w` from
`candidate`, it is the first run in `w` followed by the rest. -/
theorem searchNLoop_eq (hc : 1 ≤ c) (v : β) (rest : List α) :
    (∀ f, searchNLoop p c v rest f none = f + Rocprim.searchN p rest c v) ∧
    ∀ f candidate cur (w : List α), w.length = cur → cur < c → candidate + cur = f →
      (∀ a ∈ w, p a v = true) →
      searchNLoop p c v rest f (some (candidate, cur)) =
        candidate + Rocprim.searchN p (w ++ rest) c v := by
  obtain ⟨c, rfl⟩ : ∃ k, c = k + 1 := ⟨c - 1, by omega⟩
  induction rest with
  | nil =>
    refine ⟨fun f => rfl, fun f candidate cur w hw hcur hf _ => ?_⟩
    rw [searchNLoop, Rocprim.searchN, List.append_nil,
      firstIndex_of_forall fun i _ => occursAt_of_length_lt (by simp; omega)]
    omega
  | cons x t ih =>
    refine ⟨fun f => ?_, fun f candidate cur w hw hcur hf hall => ?_⟩
    · rw [searchNLoop, searchN_cons]
      cases hx : p x v
      · simp [ih.1]; omega
      · rcases Nat.eq_zero_or_pos c with rfl | hc'
        · simp [occursAt_nil]
        · rw [if_neg (by simp), if_neg (by omega),
            ih.2 (f + 1) f 1 [x] rfl (by omega) rfl (by simp [hx]), List.singleton_append,
            searchN_cons, hx]
    · rw [searchNLoop]
      cases hx : p x v
      · rw [if_pos (by simp), ih.1, searchN_append_of_not p (by omega) hx]
        omega
      · by_cases hend : c + 1 ≤ cur + 1
        · rw [if_neg (by simp), if_pos hend, searchN_append_of_run p hall hx (by omega)]
          rfl
        · rw [if_neg (by simp), if_neg hend,
            ih.2 (f + 1) candidate (cur + 1) (w ++ [x]) (by simp [hw]) (by omega) (by omega)
              (fun a ha => by
                rcases List.mem_append.mp ha with ha | ha
                · exact hall a ha
                · rw [List.mem_singleton.mp ha]; exact hx)]
          simp

end SearchN

/-- `std::search_n` returns the first run that `rocprim::search_n` specifies. -/
theorem searchN_eq (p : α → β → Bool) (count : ℕ) (value : β) (xs : List α) :
    searchN p count value xs = Rocprim.searchN p xs count value := by
  rw [searchN]
  split
  · subst count
    cases xs with
    | nil => rfl
    | cons x t => simp [Rocprim.searchN, firstIndex_succ, occursAt_nil]
  · rw [(searchNLoop_eq p (by omega) value xs).1 0, Nat.zero_add]

/-- Loop invariant of `std::find_end`: `rest` is the range from `first` on, and `result`
is the last occurrence before `first`, or `last` when there is none. -/
theorem findEndLoop_eq (p : α → β → Bool) (ss : List β) (xs : List α) (rest : List α)
    (first result : ℕ) (hrest : rest = xs.drop first) (hfirst : first ≤ xs.length)
    (hres : result = (lastBelow first (occursAt p xs ss)).getD xs.length) :
    findEndLoop p ss rest first result = Rocprim.findEnd p xs ss := by
  induction rest, first, result using findEndLoop.induct p ss with
  | case1 rest first result r h =>
    have h : search p ss rest = rest.length := h
    have hnone := (firstIndex_spec (n := rest.length) (q := occursAt p rest ss)).2
    rw [← Rocprim.search, ← search_eq, h] at hnone
    rw [findEndLoop, if_pos h, hres, Rocprim.findEnd, lastIndex,
      ← Nat.add_sub_cancel' hfirst, lastBelow_add_of_forall fun i h1 h2 => ?_]
    rw [show i = first + (i - first) by omega, ← occursAt_drop p ss hfirst, ← hrest]
    exact hnone _ (by simp [hrest]; omega)
  | case2 rest first result r h ih =>
    have hr : search p ss rest = r := rfl
    clear_value r
    have hlen : rest.length = xs.length - first := by rw [hrest, List.length_drop]
    have hlt : r < rest.length := hr ▸ Nat.lt_of_le_of_ne (search_le_length p ss rest) (hr ▸ h)
    have hfound := (firstIndex_spec (n := rest.length) (q := occursAt p rest ss)).1
    rw [← Rocprim.search, ← search_eq, hr] at hfound
    rw [findEndLoop, hr, if_neg h]
    refine ih (by rw [hrest, List.drop_drop]; congr 1) (by omega) ?_
    rw [lastBelow_succ, ← occursAt_drop p ss hfirst, ← hrest, if_pos (hfound hlt)]
    rfl

/-- For a non-empty pattern `std::find_end` returns the last occurrence that
`rocprim::find_end` specifies. -/
theorem findEnd_eq (p : α → β → Bool) {ss : List β} (hss : ss ≠ []) (xs : List α) :
    findEnd p ss xs = Rocprim.findEnd p xs ss := by
  rw [findEnd, if_neg (by simpa using hss)]
  exact findEndLoop_eq p ss xs xs 0 xs.length rfl (Nat.zero_le _) rfl

/-- The 4-iterator `std::mismatch` is the 3-iterator one on the common prefix length. -/
theorem mismatch_take_min (p : α → β → Bool) (xs : List α) (ys : List β) :
    mismatch p (xs.take (Nat.min xs.length ys.length)) ys = mismatch4 p xs ys := by
  induction xs generalizing ys with
  | nil => simp [mismatch, mismatch4]
  | cons x t ih =>
    cases ys with
    | nil => simp [mismatch, mismatch4]
    | cons y u =>
      simp only [List.length_cons, Nat.succ_min_succ, List.take_succ_cons, mismatch,
        mismatch4, ih]

/-- The 4-iterator `std::equal` is the length test followed by the 3-iterator one. -/
theorem equal_of_length_eq (p : α → β → Bool) (xs : List α) (ys : List β) :
    (if xs.length ≠ ys.length then false else equal p xs ys) = equal4 p xs ys := by
  induction xs generalizing ys with
  | nil => cases ys <;> rfl
  | cons x t ih =>
    cases ys with
    | nil => rfl
    | cons y u =>
      have := ih u
      simp only [List.length_cons, ne_eq, Nat.add_right_cancel_iff, equal, equal4] at this ⊢
      split <;> simp_all

end RocThrust.Host
