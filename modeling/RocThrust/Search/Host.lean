import Mathlib.Order.Basic

/-! The host fallback of `search.hpp`: the sequential ISO C++ algorithms that the
non-offloaded overloads call through `std::execution::par`. A range `[first, last)`
is a list, and an iterator into it is its offset from `first`, so `last` is the
length of the list. -/
namespace RocThrust.Host

variable {α β : Type*}

/-- How the inner loop of `std::search` ends at one candidate position. -/
inductive Scan where
  | matched
  | exhausted
  | mismatch
  deriving DecidableEq, Repr

/-- Inner loop of `std::search`: walk the pattern and the range together from the
candidate until the pattern ends, the range ends, or a pair fails `p`. -/
def scan (p : α → β → Bool) : List α → List β → Scan
  | _, [] => .matched
  | [], _ :: _ => .exhausted
  | a :: as, b :: bs => if p a b then scan p as bs else .mismatch

/-- `std::search(first, last, s_first, s_last, p)`: try each candidate in turn; the
inner loop returns the candidate on a match and `last` when the range runs out. On an
empty range both give `first = last`. -/
def search (p : α → β → Bool) (ss : List β) : List α → ℕ
  | [] => 0
  | x :: t =>
    match scan p (x :: t) ss with
    | .matched => 0
    | .exhausted => t.length + 1
    | .mismatch => search p ss t + 1

theorem search_le_length (p : α → β → Bool) (ss : List β) (xs : List α) :
    search p ss xs ≤ xs.length := by
  induction xs with
  | nil => simp [search]
  | cons x t ih =>
    simp only [search, List.length_cons]
    split <;> omega

@[simp] theorem search_nil_pattern (p : α → β → Bool) (xs : List α) : search p [] xs = 0 := by
  cases xs <;> rfl

/-- The `while` loop of `std::find_end` over the rest `[first, last)` of the range:
search again from one past the newest match, which becomes the result. -/
def findEndLoop (p : α → β → Bool) (ss : List β) (rest : List α) (first result : ℕ) : ℕ :=
  let newResult := search p ss rest
  if newResult = rest.length then result
  else findEndLoop p ss (rest.drop (newResult + 1)) (first + newResult + 1) (first + newResult)
termination_by rest.length
decreasing_by
  have := search_le_length p ss rest
  simp only [List.length_drop]
  omega

/-- `std::find_end`: `last` for an empty pattern, else the loop from `first` with
`result = last`. -/
def findEnd (p : α → β → Bool) (ss : List β) (xs : List α) : ℕ :=
  if ss.isEmpty then xs.length else findEndLoop p ss xs 0 xs.length

/-- `std::find_first_of`: the first element that `p` relates to some pattern element. -/
def findFirstOf (p : α → β → Bool) (ss : List β) : List α → ℕ
  | [] => 0
  | x :: t => if ss.any (p x) then 0 else findFirstOf p ss t + 1

@[simp] theorem findFirstOf_nil_pattern (p : α → β → Bool) (xs : List α) :
    findFirstOf p [] xs = xs.length := by
  induction xs with
  | nil => rfl
  | cons x t ih => simp [findFirstOf, ih]

/-- `std::adjacent_find`: the first element related by `p` to its successor. -/
def adjacentFind (p : α → α → Bool) : List α → ℕ
  | [] => 0
  | [_] => 1
  | x :: y :: t => if p x y then 0 else adjacentFind p (y :: t) + 1

/-- The two loops of `std::search_n` from the current position `first` on: `run` is
`none` in the outer loop and `some (candidate, cur_count)` inside the inner one. -/
def searchNLoop (p : α → β → Bool) (count : ℕ) (value : β) :
    List α → ℕ → Option (ℕ × ℕ) → ℕ
  | [], first, _ => first
  | x :: t, first, none =>
    if !p x value then searchNLoop p count value t (first + 1) none
    else if 1 ≥ count then first
    else searchNLoop p count value t (first + 1) (some (first, 1))
  | x :: t, first, some (candidate, cur) =>
    if !p x value then searchNLoop p count value t (first + 1) none
    else if cur + 1 ≥ count then candidate
    else searchNLoop p count value t (first + 1) (some (candidate, cur + 1))

/-- `std::search_n(first, last, count, value, p)`. -/
def searchN (p : α → β → Bool) (count : ℕ) (value : β) (xs : List α) : ℕ :=
  if count = 0 then 0 else searchNLoop p count value xs 0 none

/-- `std::mismatch(first1, last1, first2, p)`: the common offset of the returned pair.
Reading past the end of the second range is undefined in C++; the model stops there. -/
def mismatch (p : α → β → Bool) : List α → List β → ℕ
  | [], _ => 0
  | a :: as, bs =>
    match bs with
    | b :: bs => if p a b then mismatch p as bs + 1 else 0
    | [] => 0

/-- `std::mismatch(first1, last1, first2, last2, p)`. -/
def mismatch4 (p : α → β → Bool) : List α → List β → ℕ
  | a :: as, b :: bs => if p a b then mismatch4 p as bs + 1 else 0
  | _, _ => 0

/-- `std::equal(first1, last1, first2, p)`; past the end of the second range the
model answers `false`. -/
def equal (p : α → β → Bool) : List α → List β → Bool
  | [], _ => true
  | a :: as, bs =>
    match bs with
    | b :: bs => p a b && equal p as bs
    | [] => false

/-- `std::equal(first1, last1, first2, last2, p)`: compare while both ranges last,
then require both to have ended. -/
def equal4 (p : α → β → Bool) : List α → List β → Bool
  | a :: as, b :: bs => p a b && equal4 p as bs
  | [], [] => true
  | _, _ => false

example : search (· == ·) [2, 3] [1, 2, 2, 3, 4] = 2 := by decide
example : searchN (· == ·) 3 1 [1, 1, 1, 2] = 0 ∧ searchN (· == ·) 3 1 [1, 1, 2] = 3 := by
  decide
example : adjacentFind (· == ·) [1, 1, 2, 3] = 0 := by decide

end RocThrust.Host
