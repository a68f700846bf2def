import RocThrust.Testing.RuntimeStaticAssert

/-! A unit-test binary as a run over the device. It uses `ASSERT_STATIC_ASSERT` and, in
device code outside the macro, `THRUST_STATIC_ASSERT`, which `runtime_static_assert.h`
turns into `unittest::assert_static`. All of them share the slot
`unittest::detail::device_exception`, which starts as `NULL`. The test framework catches
what a test throws and goes on with the next test, so the run continues past every
exception. -/
namespace RocThrust.Unittest

/-- A step of a test binary that touches the device. -/
inductive Event where
  /-- A use of `ASSERT_STATIC_ASSERT`, with the answers of the runtime. -/
  | assertStaticAssert (o : Outcomes)
  /-- A failing `THRUST_STATIC_ASSERT` in device code outside the macro. -/
  | kernelAssert
  deriving DecidableEq, Repr

def Event.program : Event → Run Unit
  | .assertStaticAssert o => RocThrust.Unittest.assertStaticAssert o
  | .kernelAssert => assertStatic true false

/-- The device after the events, each test's exception caught by the framework. -/
def runTests : List Event → Mem → Mem
  | [], m => m
  | e :: es, m => runTests es (run e.program m).2

/-- What each step reports, in order. -/
def verdicts : List Event → Mem → List (Except Thrown Unit)
  | [], _ => []
  | e :: es, m => (run e.program m).1 :: verdicts es (run e.program m).2

/-- The device when the binary starts: the slot `NULL`, nothing allocated. -/
def Mem.init : Mem := ⟨0, [], [], []⟩

/-- `a` has been allocated more often than freed. -/
def Live (m : Mem) (a : ℕ) : Prop := m.frees.count a < m.allocs.count a

/-- No address freed more often than allocated. -/
def NoDoubleFree (m : Mem) : Prop := ∀ a, m.frees.count a ≤ m.allocs.count a

/-- What the binary should keep true of the device: no double free, and the slot `NULL`
or naming a live object, so that a kernel assertion never writes to freed memory. -/
structure SlotSafe (m : Mem) : Prop where
  noDoubleFree : NoDoubleFree m
  slot : m.slot = 0 ∨ Live m m.slot

/-! ### One step -/

/-- A kernel assertion writes through the slot and allocates and frees nothing. -/
theorem run_kernelAssert (m : Mem) :
    run Event.kernelAssert.program m = (.ok (), { m with triggered := m.slot :: m.triggered }) :=
  rfl

theorem NoDoubleFree.assertStaticAssert {m : Mem} (h : NoDoubleFree m) (o : Outcomes) :
    NoDoubleFree (run (assertStaticAssert o) m).2 := by
  intro a
  have := h a
  rcases assertStaticAssert_mem o m with ⟨ha, hf, -⟩ | ⟨ha, hf, -⟩ | ⟨ha, hf, -⟩ <;>
    simp only [ha, hf, List.count_append] <;> omega

theorem SlotSafe.assertStaticAssert {m : Mem} (h : SlotSafe m) {o : Outcomes}
    (hc : o.copyOut = true) : SlotSafe (run (assertStaticAssert o) m).2 := by
  refine ⟨h.noDoubleFree.assertStaticAssert o, ?_⟩
  have hd := h.noDoubleFree o.addr
  rcases assertStaticAssert_mem o m with ⟨ha, hf, hs⟩ | ⟨ha, hf, hs | hs⟩ | ⟨ha, hf, hs⟩
  · rw [Live, ha, hf, hs]
    exact h.slot
  · rw [Live, ha, hf, hs, List.count_append, List.count_append]
    exact h.slot.imp id fun hl => by unfold Live at hl; omega
  · rw [hs, hc]
    exact .inl rfl
  · rw [Live, ha, hf, hs, List.count_append, List.count_singleton_self]
    omega

theorem SlotSafe.kernelAssert {m : Mem} (h : SlotSafe m) :
    SlotSafe (run Event.kernelAssert.program m).2 := by
  rw [run_kernelAssert]
  exact ⟨h.noDoubleFree, h.slot⟩

/-! ### Whole runs -/

/-- Over every run, whatever the runtime answers, no address is freed more often than it
was allocated. -/
theorem noDoubleFree_runTests (es : List Event) {m : Mem} (h : NoDoubleFree m) :
    NoDoubleFree (runTests es m) := by
  induction es generalizing m with
  | nil => exact h
  | cons e es ih =>
    apply ih
    cases e with
    | assertStaticAssert o => exact h.assertStaticAssert o
    | kernelAssert => rw [run_kernelAssert]; exact h

theorem noDoubleFree_runTests_init :
    NoDoubleFree Mem.init ∧
      NoDoubleFree (runTests
        [.assertStaticAssert ⟨true, true, .throwsOther, true, true, 16⟩, .kernelAssert]
        Mem.init) :=
  ⟨fun _ => le_rfl, noDoubleFree_runTests _ fun _ => le_rfl⟩

/-- Unless a second `hipMemcpyToSymbol` fails, every state of the run keeps the slot
`NULL` or naming a live object, so no kernel assertion writes to freed memory. -/
theorem slotSafe_runTests (es : List Event) {m : Mem} (h : SlotSafe m)
    (hc : ∀ o, Event.assertStaticAssert o ∈ es → o.copyOut = true) :
    SlotSafe (runTests es m) := by
  induction es generalizing m with
  | nil => exact h
  | cons e es ih =>
    apply ih _ fun o ho => hc o (List.mem_cons_of_mem e ho)
    cases e with
    | assertStaticAssert o => exact h.assertStaticAssert (hc o (List.mem_cons_self _ _))
    | kernelAssert => exact h.kernelAssert

theorem slotSafe_runTests_kernel :
    SlotSafe Mem.init ∧
      (∀ o, Event.assertStaticAssert o ∈
          [.assertStaticAssert ⟨true, true, .assertsInKernel, true, true, 16⟩, .kernelAssert] →
        o.copyOut = true) ∧
      SlotSafe (runTests
        [.assertStaticAssert ⟨true, true, .assertsInKernel, true, true, 16⟩, .kernelAssert]
        Mem.init) :=
  have h0 : SlotSafe Mem.init := ⟨fun _ => le_rfl, .inl rfl⟩
  have hc : ∀ o, Event.assertStaticAssert o ∈
      [.assertStaticAssert ⟨true, true, .assertsInKernel, true, true, 16⟩, .kernelAssert] →
      o.copyOut = true := fun o ho => by
    simp only [List.mem_cons, Event.assertStaticAssert.injEq, reduceCtorEq,
      List.not_mem_nil, or_false] at ho
    rw [ho]
  ⟨h0, hc, slotSafe_runTests _ h0 hc⟩

/-- A failed second copy breaks it: the slot names the freed object, and the next kernel
assertion writes into it. -/
example :
    (runTests [.assertStaticAssert ⟨true, true, .assertsOnHost, true, false, 16⟩, .kernelAssert]
      Mem.init) = ⟨16, [16], [16], [16]⟩ := by
  decide

/-- No test sees another: each step of a run reports what it would report as the first
step of a fresh binary, whatever earlier tests leaked, left in the slot or marked. -/
theorem verdicts_eq_map (es : List Event) (m : Mem) :
    verdicts es m = es.map fun e => (run e.program Mem.init).1 := by
  induction es generalizing m with
  | nil => rfl
  | cons e es ih =>
    rw [verdicts, ih, List.map_cons]
    congr 1
    cases e with
    | assertStaticAssert o => exact assertStaticAssert_result_indep o m Mem.init
    | kernelAssert => rfl

end RocThrust.Unittest
