import RocThrust.Search.Rocprim

/-! The two-phase wrappers of `search.hpp` (`thrust::find_first_of`, `search`,
`search_n`, `find_end` and `adjacent_find`) as programs against the HIP runtime. What
each runtime call answers is given by an `Outcomes` record, so a theorem over every
record is a theorem over every combination of failures. A run logs the device
allocations and frees it makes and ends with a returned offset or an escaping exception.

`thrust::malloc` (outside this repository) throws `bad_alloc` when an allocation fails;
on success the primitive writes the offset of its rocPRIM contract to `d_output`. -/
namespace RocThrust.Device

variable {α β : Type*}

/-- The device buffers of a wrapper, named by the variable that holds them. -/
inductive Buffer where
  | output
  | value
  | temp
  deriving DecidableEq, Repr

inductive Event where
  | malloc (b : Buffer)
  | free (b : Buffer)
  deriving DecidableEq, Repr

/-- An exception that can leave a wrapper. -/
inductive Thrown where
  | badAlloc
  deriving DecidableEq, Repr

/-- A wrapper in progress: it may throw, and it logs its allocations and frees. -/
abbrev Hip := ExceptT Thrown (StateM (List Event))

/-- The answer of the runtime to each call a wrapper makes: `true` is `hipSuccess`, and
for `thrust::malloc` an allocation that does not throw. `staleOffset` is what the
uninitialised host variable `offset` holds if the copy back fails. -/
structure Outcomes where
  mallocOutput : Bool
  mallocValue : Bool
  copyValue : Bool
  sizeQuery : Bool
  mallocTemp : Bool
  execute : Bool
  synchronize : Bool
  copyOffset : Bool
  staleOffset : ℕ
  deriving DecidableEq, Repr

def Outcomes.allSucceed (o : Outcomes) : Bool :=
  o.mallocOutput && o.mallocValue && o.copyValue && o.sizeQuery && o.mallocTemp &&
    o.execute && o.synchronize && o.copyOffset

/-- `thrust::malloc(dev_tag, ...)` for buffer `b`. -/
def malloc (ok : Bool) (b : Buffer) : Hip Unit :=
  if ok then modify (· ++ [.malloc b]) else throw .badAlloc

/-- `thrust::free(dev_tag, b)`. -/
def free (b : Buffer) : Hip Unit := modify (· ++ [.free b])

/-- The returned offset or escaping exception of a wrapper, and the calls it made. -/
def run {γ : Type} (w : Hip γ) : Except Thrown γ × List Event := (w.run).run []

@[simp] theorem run_pure {γ : Type} (a : γ) : run (pure a : Hip γ) = (.ok a, []) := rfl

@[simp] theorem run_map {γ δ : Type} (f : γ → δ) (w : Hip γ) :
    run (f <$> w) = (f <$> (run w).1, (run w).2) := by
  simp only [run, ExceptT.run_map]
  rfl

/-- The common body of `find_first_of`, `search`, `find_end` and `adjacent_find` after
their empty-range test: allocate `d_output`, query the temporary storage size, allocate
`d_temp_storage`, execute, synchronise, copy the offset back and free. `offset` is what
the primitive writes; `last` is the sentinel. -/
def twoPhase (o : Outcomes) (last offset : ℕ) : Hip ℕ := do
  malloc o.mallocOutput .output
  if !o.sizeQuery then return last
  malloc o.mallocTemp .temp
  if !o.execute then
    free .temp
    free .output
    return last
  if !o.synchronize then
    free .temp
    free .output
    return last
  let result := if o.copyOffset then offset else o.staleOffset
  free .temp
  free .output
  return result

def findFirstOf (o : Outcomes) (p : α → β → Bool) (xs : List α) (ss : List β) : Hip ℕ :=
  if ss.isEmpty then pure xs.length else twoPhase o xs.length (Rocprim.findFirstOf p xs ss)

def search (o : Outcomes) (p : α → β → Bool) (xs : List α) (ss : List β) : Hip ℕ :=
  if ss.isEmpty then pure 0 else twoPhase o xs.length (Rocprim.search p xs ss)

def findEnd (o : Outcomes) (p : α → β → Bool) (xs : List α) (ss : List β) : Hip ℕ :=
  if ss.isEmpty then pure xs.length else twoPhase o xs.length (Rocprim.findEnd p xs ss)

def adjacentFind (o : Outcomes) (p : α → α → Bool) (xs : List α) : Hip ℕ :=
  if xs.isEmpty then pure xs.length else twoPhase o xs.length (Rocprim.adjacentFind p xs)

/-- `thrust::search_n`: it also allocates `d_value` and copies `value` into it, with the
copy's status unchecked (`stale` is what `d_value` holds if it fails), and has no
test before allocating. -/
def searchN (o : Outcomes) (p : α → β → Bool) (xs : List α) (count : ℕ) (value stale : β) :
    Hip ℕ := do
  malloc o.mallocOutput .output
  malloc o.mallocValue .value
  let dValue := if o.copyValue then value else stale
  if !o.sizeQuery then return xs.length
  malloc o.mallocTemp .temp
  if !o.execute then
    free .temp
    free .output
    free .value
    return xs.length
  if !o.synchronize then
    free .temp
    free .output
    free .value
    return xs.length
  let result := if o.copyOffset then Rocprim.searchN p xs count dValue else o.staleOffset
  free .temp
  free .output
  free .value
  return result

/-- Replay allocation events over the live buffers: `none` when a free hits a buffer
that is not live (a double or foreign free) or an allocation one that is. -/
def replay : List Event → List Buffer → Option (List Buffer)
  | [], live => some live
  | .malloc b :: es, live => if b ∈ live then none else replay es (b :: live)
  | .free b :: es, live => if b ∈ live then replay es (live.erase b) else none

/-! ### What a run does, outcome by outcome -/

/-- The calls `twoPhase` makes when it gets past the size query and the allocations. -/
def twoPhaseEvents : List Event := [.malloc .output, .malloc .temp, .free .temp, .free .output]

/-- Every run of the common two-phase body. -/
theorem run_twoPhase (o : Outcomes) (last offset : ℕ) :
    run (twoPhase o last offset) =
      if !o.mallocOutput then (.error .badAlloc, [])
      else if !o.sizeQuery then (.ok last, [.malloc .output])
      else if !o.mallocTemp then (.error .badAlloc, [.malloc .output])
      else if !o.execute || !o.synchronize then (.ok last, twoPhaseEvents)
      else (.ok (if o.copyOffset then offset else o.staleOffset), twoPhaseEvents) := by
  obtain ⟨a, _, _, d, e, f, g, _, _⟩ := o
  cases a <;> cases d <;> cases e <;> cases f <;> cases g <;> rfl

/-- The calls `searchN` makes when it gets past the size query and the allocations. -/
def searchNEvents : List Event :=
  [.malloc .output, .malloc .value, .malloc .temp, .free .temp, .free .output, .free .value]

/-- Every run of `thrust::search_n`. -/
theorem run_searchN (o : Outcomes) (p : α → β → Bool) (xs : List α) (count : ℕ)
    (value stale : β) :
    run (searchN o p xs count value stale) =
      if !o.mallocOutput then (.error .badAlloc, [])
      else if !o.mallocValue then (.error .badAlloc, [.malloc .output])
      else if !o.sizeQuery then (.ok xs.length, [.malloc .output, .malloc .value])
      else if !o.mallocTemp then (.error .badAlloc, [.malloc .output, .malloc .value])
      else if !o.execute || !o.synchronize then (.ok xs.length, searchNEvents)
      else (.ok (if o.copyOffset then
          Rocprim.searchN p xs count (if o.copyValue then value else stale)
        else o.staleOffset), searchNEvents) := by
  obtain ⟨a, b, _, d, e, f, g, _, _⟩ := o
  cases a <;> cases b <;> cases d <;> cases e <;> cases f <;> cases g <;> rfl

theorem run_twoPhase_of_allSucceed {o : Outcomes} (ho : o.allSucceed = true) (last offset : ℕ) :
    run (twoPhase o last offset) = (.ok offset, twoPhaseEvents) := by
  simp only [Outcomes.allSucceed, Bool.and_eq_true] at ho
  simp [run_twoPhase, ho]

theorem run_searchN_of_allSucceed {o : Outcomes} (ho : o.allSucceed = true)
    (p : α → β → Bool) (xs : List α) (count : ℕ) (value stale : β) :
    run (searchN o p xs count value stale) = (.ok (Rocprim.searchN p xs count value), searchNEvents) := by
  simp only [Outcomes.allSucceed, Bool.and_eq_true] at ho
  simp [run_searchN, ho]

end RocThrust.Device
