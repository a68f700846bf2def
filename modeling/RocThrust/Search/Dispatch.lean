import RocThrust.Search.Device
import RocThrust.Search.Refinement

/-! The `std` entry points of `search.hpp` that adapt their arguments before offloading,
next to their host fallbacks. `mismatch` and `equal` offload to `thrust::device`
algorithms, which compute their sequential counterparts; the others go through the
two-phase wrappers. -/
namespace RocThrust.Hipstd
open Device

variable {α β : Type}

/-- A call of an entry point, in its overload with a predicate. -/
inductive Call (α β : Type) where
  | search (p : α → β → Bool) (xs : List α) (ss : List β)
  | searchN (p : α → β → Bool) (xs : List α) (count : ℕ) (value : β)
  | findEnd (p : α → β → Bool) (xs : List α) (ss : List β)
  | findFirstOf (p : α → β → Bool) (xs : List α) (ss : List β)
  | adjacentFind (p : α → α → Bool) (xs : List α)
  | mismatch (p : α → β → Bool) (xs : List α) (ys : List β)
  | mismatch4 (p : α → β → Bool) (xs : List α) (ys : List β)
  | equal (p : α → β → Bool) (xs : List α) (ys : List β)
  | equal4 (p : α → β → Bool) (xs : List α) (ys : List β)

/-- A call of an entry point, in its overload without a predicate. -/
inductive CallEq (α : Type) where
  | search (xs ss : List α)
  | searchN (xs : List α) (count : ℕ) (value : α)
  | findEnd (xs ss : List α)
  | findFirstOf (xs ss : List α)
  | adjacentFind (xs : List α)
  | mismatch (xs ys : List α)
  | mismatch4 (xs ys : List α)
  | equal (xs ys : List α)
  | equal4 (xs ys : List α)

/-- What an entry point returns: an iterator, a pair of iterators, or a truth value. -/
inductive Ret where
  | pos (n : ℕ)
  | pair (a b : ℕ)
  | bool (b : Bool)
  deriving DecidableEq, Repr

/-- The offloaded overloads. `stale` is what `d_value` of `search_n` holds if the upload
of `value` fails. -/
def offloaded (o : Outcomes) (stale : β) : Call α β → Hip Ret
  | .search p xs ss => .pos <$> Device.search o p xs ss
  | .searchN p xs count value => .pos <$> Device.searchN o p xs count value stale
  | .findEnd p xs ss => .pos <$> Device.findEnd o p xs ss
  | .findFirstOf p xs ss => .pos <$> Device.findFirstOf o p xs ss
  | .adjacentFind p xs => .pos <$> Device.adjacentFind o p xs
  | .mismatch p xs ys =>
    let k := Host.mismatch p xs ys
    pure (.pair k k)
  | .mismatch4 p xs ys =>
    let n := Nat.min xs.length ys.length
    let k := Host.mismatch p (xs.take n) ys
    pure (.pair k k)
  | .equal p xs ys => pure (.bool (Host.equal p xs ys))
  | .equal4 p xs ys => pure (.bool (if xs.length ≠ ys.length then false else Host.equal p xs ys))

/-- The host fallbacks, through `std::execution::par`. -/
def fallback : Call α β → Ret
  | .search p xs ss => .pos (Host.search p ss xs)
  | .searchN p xs count value => .pos (Host.searchN p count value xs)
  | .findEnd p xs ss => .pos (Host.findEnd p ss xs)
  | .findFirstOf p xs ss => .pos (Host.findFirstOf p ss xs)
  | .adjacentFind p xs => .pos (Host.adjacentFind p xs)
  | .mismatch p xs ys =>
    let k := Host.mismatch p xs ys
    .pair k k
  | .mismatch4 p xs ys =>
    let k := Host.mismatch4 p xs ys
    .pair k k
  | .equal p xs ys => .bool (Host.equal p xs ys)
  | .equal4 p xs ys => .bool (Host.equal4 p xs ys)

section WithEq

variable [BEq α]

/-- The offloaded overloads without a predicate pass `thrust::equal_to<>`. -/
def offloadedEq (o : Outcomes) (stale : α) : CallEq α → Hip Ret
  | .search xs ss => .pos <$> Device.search o (· == ·) xs ss
  | .searchN xs count value => .pos <$> Device.searchN o (· == ·) xs count value stale
  | .findEnd xs ss => .pos <$> Device.findEnd o (· == ·) xs ss
  | .findFirstOf xs ss => .pos <$> Device.findFirstOf o (· == ·) xs ss
  | .adjacentFind xs => .pos <$> Device.adjacentFind o (· == ·) xs
  | .mismatch xs ys =>
    let k := Host.mismatch (· == ·) xs ys
    pure (.pair k k)
  | .mismatch4 xs ys =>
    let n := Nat.min xs.length ys.length
    let k := Host.mismatch (· == ·) (xs.take n) ys
    pure (.pair k k)
  | .equal xs ys => pure (.bool (Host.equal (· == ·) xs ys))
  | .equal4 xs ys =>
    pure (.bool (if xs.length ≠ ys.length then false else Host.equal (· == ·) xs ys))

/-- The host fallbacks without a predicate compare with `operator==`. -/
def fallbackEq : CallEq α → Ret
  | .search xs ss => .pos (Host.search (· == ·) ss xs)
  | .searchN xs count value => .pos (Host.searchN (· == ·) count value xs)
  | .findEnd xs ss => .pos (Host.findEnd (· == ·) ss xs)
  | .findFirstOf xs ss => .pos (Host.findFirstOf (· == ·) ss xs)
  | .adjacentFind xs => .pos (Host.adjacentFind (· == ·) xs)
  | .mismatch xs ys =>
    let k := Host.mismatch (· == ·) xs ys
    .pair k k
  | .mismatch4 xs ys =>
    let k := Host.mismatch4 (· == ·) xs ys
    .pair k k
  | .equal xs ys => .bool (Host.equal (· == ·) xs ys)
  | .equal4 xs ys => .bool (Host.equal4 (· == ·) xs ys)

/-- Each overload without a predicate is the one with `==` as its predicate. -/
def CallEq.withEq : CallEq α → Call α α
  | .search xs ss => .search (· == ·) xs ss
  | .searchN xs count value => .searchN (· == ·) xs count value
  | .findEnd xs ss => .findEnd (· == ·) xs ss
  | .findFirstOf xs ss => .findFirstOf (· == ·) xs ss
  | .adjacentFind xs => .adjacentFind (· == ·) xs
  | .mismatch xs ys => .mismatch (· == ·) xs ys
  | .mismatch4 xs ys => .mismatch4 (· == ·) xs ys
  | .equal xs ys => .equal (· == ·) xs ys
  | .equal4 xs ys => .equal4 (· == ·) xs ys

theorem offloadedEq_eq (o : Outcomes) (stale : α) (c : CallEq α) :
    offloadedEq o stale c = offloaded o stale c.withEq := by
  cases c <;> rfl

theorem fallbackEq_eq (c : CallEq α) : fallbackEq c = fallback c.withEq := by
  cases c <;> rfl

end WithEq

/-! ### Runs in which every runtime call succeeds -/

section AllSucceed

variable {o : Outcomes}

theorem search_of_allSucceed (ho : o.allSucceed = true) (p : α → β → Bool) (xs : List α)
    (ss : List β) : (run (Device.search o p xs ss)).1 = .ok (Host.search p ss xs) := by
  unfold Device.search
  split
  · rename_i h
    rw [List.isEmpty_iff.mp h, Host.search_nil_pattern]
    rfl
  · rw [run_twoPhase_of_allSucceed ho, Host.search_eq]

theorem findEnd_of_allSucceed (ho : o.allSucceed = true) (p : α → β → Bool) (xs : List α)
    (ss : List β) : (run (Device.findEnd o p xs ss)).1 = .ok (Host.findEnd p ss xs) := by
  unfold Device.findEnd
  split
  · rename_i h
    rw [List.isEmpty_iff.mp h]
    rfl
  · rename_i h
    rw [run_twoPhase_of_allSucceed ho, Host.findEnd_eq p (by simpa using h)]

theorem findFirstOf_of_allSucceed (ho : o.allSucceed = true) (p : α → β → Bool) (xs : List α)
    (ss : List β) : (run (Device.findFirstOf o p xs ss)).1 = .ok (Host.findFirstOf p ss xs) := by
  unfold Device.findFirstOf
  split
  · rename_i h
    rw [List.isEmpty_iff.mp h, Host.findFirstOf_nil_pattern]
    rfl
  · rw [run_twoPhase_of_allSucceed ho, Host.findFirstOf_eq]

theorem adjacentFind_of_allSucceed (ho : o.allSucceed = true) (p : α → α → Bool)
    (xs : List α) : (run (Device.adjacentFind o p xs)).1 = .ok (Host.adjacentFind p xs) := by
  unfold Device.adjacentFind
  split
  · rename_i h
    rw [List.isEmpty_iff.mp h]
    rfl
  · rw [run_twoPhase_of_allSucceed ho, Host.adjacentFind_eq]

theorem searchN_of_allSucceed (ho : o.allSucceed = true) (p : α → β → Bool) (xs : List α)
    (count : ℕ) (value stale : β) :
    (run (Device.searchN o p xs count value stale)).1 = .ok (Host.searchN p count value xs) := by
  rw [run_searchN_of_allSucceed ho, Host.searchN_eq]

theorem offloaded_of_allSucceed (ho : o.allSucceed = true) (stale : β) (c : Call α β) :
    (run (offloaded o stale c)).1 = .ok (fallback c) := by
  cases c with
  | search p xs ss => simp [offloaded, fallback, search_of_allSucceed ho]
  | searchN p xs count value => simp [offloaded, fallback, searchN_of_allSucceed ho]
  | findEnd p xs ss => simp [offloaded, fallback, findEnd_of_allSucceed ho]
  | findFirstOf p xs ss => simp [offloaded, fallback, findFirstOf_of_allSucceed ho]
  | adjacentFind p xs => simp [offloaded, fallback, adjacentFind_of_allSucceed ho]
  | mismatch p xs ys => rfl
  | mismatch4 p xs ys => simp [offloaded, fallback, Host.mismatch_take_min]
  | equal p xs ys => rfl
  | equal4 p xs ys => simp [offloaded, fallback, ← Host.equal_of_length_eq]

end AllSucceed

/-- In every run in which each runtime call succeeds, each offloaded overload that adapts
its arguments returns what its host fallback returns, with a predicate and without. -/
theorem offloaded_eq_fallback [BEq α] (o : Outcomes) (ho : o.allSucceed = true) (stale : β)
    (staleEq : α) :
    (∀ c : Call α β, (run (offloaded o stale c)).1 = .ok (fallback c)) ∧
      ∀ c : CallEq α, (run (offloadedEq o staleEq c)).1 = .ok (fallbackEq c) :=
  ⟨offloaded_of_allSucceed ho stale, fun c => by
    rw [offloadedEq_eq, fallbackEq_eq]; exact offloaded_of_allSucceed ho staleEq c.withEq⟩

theorem offloaded_eq_fallback_nat :
    (⟨true, true, true, true, true, true, true, true, 0⟩ : Outcomes).allSucceed = true ∧
      (∀ c : Call ℕ ℕ, (run (offloaded ⟨true, true, true, true, true, true, true, true, 0⟩ 0 c)).1 =
        .ok (fallback c)) ∧
      ∀ c : CallEq ℕ, (run (offloadedEq ⟨true, true, true, true, true, true, true, true, 0⟩ 0 c)).1 =
        .ok (fallbackEq c) :=
  ⟨rfl, offloaded_eq_fallback ⟨true, true, true, true, true, true, true, true, 0⟩ rfl 0 0⟩

end RocThrust.Hipstd
