import Mathlib.Data.List.Basic

/-! `ASSERT_STATIC_ASSERT(X)` of `runtime_static_assert.h` as a program against the
device. The macro `device_new`s a `static_assert_exception`, publishes its address in the
device variable `unittest::detail::device_exception` (the slot) with `hipMemcpyToSymbol`,
runs `X` catching `static_assert_exception`, reads the object back when nothing was
caught, frees it, clears the slot and fails the test when nothing triggered.

What each runtime call answers and what `X` does are given by an `Outcomes` record. A
run changes a `Mem`: the slot, the `triggered` fields of device objects, and the logs of
`device_new` allocations and `device_free` frees. Addresses are numbers; `0` is `NULL`. -/
namespace RocThrust.Unittest

/-- What the statement `X` does. `assertsInKernel` runs `assert_static(false, ...)` in code
that the device system compiles for the device. -/
inductive Behaviour where
  | returns
  | assertsOnHost
  | throwsOther
  | assertsInKernel
  deriving DecidableEq, Repr

/-- An exception that can leave the macro or `X`. -/
inductive Thrown where
  /-- `thrust::device_new` could not allocate. -/
  | badAlloc
  | staticAssertException
  /-- The read of `*device_ptr` failed. -/
  | systemError
  /-- An exception of `X` that is not a `static_assert_exception`. -/
  | other
  /-- A `unittest::UnitTestFailure` with its text after the `[file:line]` prefix. -/
  | unitTestFailure (msg : String)
  deriving DecidableEq, Repr

/-- The device as the macro sees it. -/
structure Mem where
  /-- `unittest::detail::device_exception`. -/
  slot : ℕ
  /-- Device objects whose `triggered` field is set. -/
  triggered : List ℕ
  allocs : List ℕ
  frees : List ℕ
  deriving DecidableEq, Repr

/-- The answer of the runtime to each call of the macro (`true` is success), what `X` does,
and the address `device_new` returns. -/
structure Outcomes where
  deviceNew : Bool
  copyIn : Bool
  behaviour : Behaviour
  readBack : Bool
  copyOut : Bool
  addr : ℕ
  deriving DecidableEq, Repr

abbrev Run := ExceptT Thrown (StateM Mem)

/-- The escaping exception or result of a program and the memory it leaves. -/
def run {γ : Type} (w : Run γ) (m : Mem) : Except Thrown γ × Mem := (w.run).run m

section Run
variable {γ δ : Type} (m : Mem)

@[simp] theorem run_pure (a : γ) : run (pure a : Run γ) m = (.ok a, m) := rfl

@[simp] theorem run_throw (e : Thrown) : run (throw e : Run γ) m = (.error e, m) := rfl

@[simp] theorem run_modify (f : Mem → Mem) : run (modify f : Run Unit) m = (.ok (), f m) := rfl

@[simp] theorem run_get : run (get : Run Mem) m = (.ok m, m) := rfl

@[simp] theorem run_bind (x : Run γ) (f : γ → Run δ) :
    run (x >>= f) m = match run x m with
      | (.ok a, m') => run (f a) m'
      | (.error e, m') => (.error e, m') := by
  unfold run
  simp only [ExceptT.run_bind, StateT.run_bind]
  rcases x.run.run m with ⟨_ | _, _⟩ <;> rfl

@[simp] theorem run_map (f : γ → δ) (x : Run γ) :
    run (f <$> x) m = match run x m with
      | (.ok a, m') => (.ok (f a), m')
      | (.error e, m') => (.error e, m') := by
  unfold run
  simp only [ExceptT.run_map, StateT.run_map]
  rcases x.run.run m with ⟨_ | _, _⟩ <;> rfl

@[simp] theorem run_tryCatch (x : Run γ) (h : Thrown → Run γ) :
    run (tryCatch x h) m = match run x m with
      | (.ok a, m') => (.ok a, m')
      | (.error e, m') => run (h e) m' := by
  unfold run
  show StateT.run (ExceptT.tryCatch x h).run m = _
  unfold ExceptT.tryCatch
  simp only [ExceptT.run_mk, StateT.run_bind]
  rcases hx : StateT.run x m with ⟨_ | _, _⟩ <;> simp only [ExceptT.run, hx] <;> rfl

end Run

/-- `thrust::device_new<ex_t>()`: the default constructor leaves `triggered` false. -/
def deviceNew (ok : Bool) (addr : ℕ) : Run ℕ :=
  if ok then do
    modify fun m => { m with
      triggered := m.triggered.filter (· ≠ addr), allocs := m.allocs ++ [addr] }
    pure addr
  else throw .badAlloc

def deviceFree (addr : ℕ) : Run Unit := modify fun m => { m with frees := m.frees ++ [addr] }

/-- `hipMemcpyToSymbol(unittest::detail::device_exception, &raw_ptr, ...)`; `true` is
`hipSuccess`. -/
def memcpyToSymbol (ok : Bool) (rawPtr : ℕ) : Run Bool :=
  if ok then do
    modify fun m => { m with slot := rawPtr }
    pure true
  else pure false

/-- `unittest::assert_static`: on the host a failed condition throws the exception; on the
device it is written to the object the slot points to. -/
def assertStatic (onDevice condition : Bool) : Run Unit :=
  if condition then pure ()
  else if onDevice then modify fun m => { m with triggered := m.slot :: m.triggered }
  else throw .staticAssertException

/-- The statement `X`; `gpu` says whether the device system is CUDA or HIP, so that kernel
code runs on the device. -/
def statement (gpu : Bool) : Behaviour → Run Unit
  | .returns => pure ()
  | .assertsOnHost => assertStatic false false
  | .throwsOther => throw .other
  | .assertsInKernel => assertStatic gpu false

/-- `try { X; } catch (ex_t) { triggered = true; }`, starting from `triggered = false`. -/
def tryStatement (gpu : Bool) (b : Behaviour) : Run Bool :=
  tryCatch (do statement gpu b; pure false) fun e =>
    if e = .staticAssertException then pure true else throw e

/-- `static_cast<ex_t>(*device_ptr).triggered`. -/
def readTriggered (ok : Bool) (devicePtr : ℕ) : Run Bool :=
  if ok then do
    let m ← get
    pure (decide (devicePtr ∈ m.triggered))
  else throw .systemError

def hipMemcpyToSymbolFailed : Thrown := .unitTestFailure "hipMemcpyToSymbol failed"

def didNotTrigger : Thrown := .unitTestFailure "did not trigger a THRUST_STATIC_ASSERT"

/-- `ASSERT_STATIC_ASSERT(X)` for the CUDA and HIP device systems. -/
def assertStaticAssert (o : Outcomes) : Run Unit := do
  let devicePtr ← deviceNew o.deviceNew o.addr
  let err ← memcpyToSymbol o.copyIn devicePtr
  if !err then
    deviceFree devicePtr
    throw hipMemcpyToSymbolFailed
  let triggered ← tryStatement true o.behaviour
  let triggered ← if !triggered then readTriggered o.readBack devicePtr else pure triggered
  deviceFree devicePtr
  let err ← memcpyToSymbol o.copyOut 0
  if !err then throw hipMemcpyToSymbolFailed
  if !triggered then throw didNotTrigger

/-- `ASSERT_STATIC_ASSERT(X)` for the other device systems, where no device memory is used. -/
def assertStaticAssertHost (b : Behaviour) : Run Unit := do
  let triggered ← tryStatement false b
  if !triggered then throw didNotTrigger

/-! ### What each call does -/

section Calls
variable (m : Mem)

@[simp] theorem run_deviceNew (ok : Bool) (addr : ℕ) :
    run (deviceNew ok addr) m =
      if ok then (.ok addr, { m with
        triggered := m.triggered.filter (· ≠ addr), allocs := m.allocs ++ [addr] })
      else (.error .badAlloc, m) := by
  cases ok <;> rfl

@[simp] theorem run_deviceFree (addr : ℕ) :
    run (deviceFree addr) m = (.ok (), { m with frees := m.frees ++ [addr] }) := rfl

@[simp] theorem run_memcpyToSymbol (ok : Bool) (rawPtr : ℕ) :
    run (memcpyToSymbol ok rawPtr) m =
      if ok then (.ok true, { m with slot := rawPtr }) else (.ok false, m) := by
  cases ok <;> rfl

@[simp] theorem run_readTriggered (ok : Bool) (devicePtr : ℕ) :
    run (readTriggered ok devicePtr) m =
      if ok then (.ok (decide (devicePtr ∈ m.triggered)), m) else (.error .systemError, m) := by
  cases ok <;> rfl

/-- `X` inside its `try`: a host assertion is caught, a kernel assertion marks the object
the slot names, and any other exception escapes. -/
@[simp] theorem run_tryStatement (gpu : Bool) (b : Behaviour) :
    run (tryStatement gpu b) m =
      match b with
      | .returns => (.ok false, m)
      | .assertsOnHost => (.ok true, m)
      | .throwsOther => (.error .other, m)
      | .assertsInKernel =>
        if gpu then (.ok false, { m with triggered := m.slot :: m.triggered }) else (.ok true, m) := by
  cases b <;> cases gpu <;> rfl

end Calls

/-! ### Cleanup -/

/-- What the macro leaves behind on each path: the frees it made and the slot. -/
theorem assertStaticAssert_cleanup (o : Outcomes) (m : Mem) :
    (o.deviceNew = false →
      (run (assertStaticAssert o) m).2.frees = m.frees ∧
        (run (assertStaticAssert o) m).2.slot = m.slot) ∧
    (o.deviceNew = true → o.copyIn = false →
      (run (assertStaticAssert o) m).2.frees = m.frees ++ [o.addr] ∧
        (run (assertStaticAssert o) m).2.slot = m.slot) ∧
    (o.deviceNew = true → o.copyIn = true → o.behaviour ≠ .throwsOther →
      (o.behaviour ≠ .assertsOnHost → o.readBack = true) →
      (run (assertStaticAssert o) m).2.frees = m.frees ++ [o.addr] ∧
        (run (assertStaticAssert o) m).2.slot = if o.copyOut then 0 else o.addr) ∧
    (o.deviceNew = true → o.copyIn = true →
      (o.behaviour = .throwsOther ∨ o.behaviour ≠ .assertsOnHost ∧ o.readBack = false) →
      (run (assertStaticAssert o) m).2.frees = m.frees ∧
        (run (assertStaticAssert o) m).2.slot = o.addr) := by
  obtain ⟨n, i, b, r, c, a⟩ := o
  dsimp only
  refine ⟨fun hn => ?_, fun hn hi => ?_, fun hn hi hx hr => ?_, fun hn hi h => ?_⟩ <;> subst hn
  · simp [assertStaticAssert]
  · subst hi
    simp [assertStaticAssert]
  · subst hi
    cases b
    case throwsOther => exact absurd rfl hx
    case assertsOnHost => cases c <;> simp [assertStaticAssert]
    all_goals obtain rfl := hr nofun; cases c <;> simp [assertStaticAssert]
  · subst hi
    rcases h with rfl | ⟨hb, rfl⟩
    · simp [assertStaticAssert]
    · cases b
      case assertsOnHost => exact absurd rfl hb
      all_goals simp [assertStaticAssert]

theorem assertStaticAssert_cleanup_kernel :
    (run (assertStaticAssert ⟨true, true, .assertsInKernel, true, true, 16⟩) ⟨0, [], [], []⟩).2.frees
        = [] ++ [16] ∧
      (run (assertStaticAssert ⟨true, true, .assertsInKernel, true, true, 16⟩)
        ⟨0, [], [], []⟩).2.slot = if true then 0 else 16 :=
  (assertStaticAssert_cleanup ⟨true, true, .assertsInKernel, true, true, 16⟩ ⟨0, [], [], []⟩).2.2.1
    rfl rfl (by decide) fun _ => rfl

/-- After a failed second `hipMemcpyToSymbol` the object is freed but the slot, `NULL`
before the macro, still names it. -/
theorem assertStaticAssert_copyOut_failure_dangles :
    (run (assertStaticAssert ⟨true, true, .assertsOnHost, true, false, 16⟩) ⟨0, [], [], []⟩).2 =
      ⟨16, [], [16], [16]⟩ :=
  rfl

/-! ### Every run of the macro -/

/-- Every run of the macro, for every answer of the runtime and every `X`: what it reports,
and the device afterwards. The object is allocated when `device_new` succeeds; it is freed
unless, after a successful first copy, `X` throws another exception or the read-back
fails; the slot then names it, unless the second copy cleared it. -/
theorem run_assertStaticAssert (o : Outcomes) (m : Mem) :
    (run (assertStaticAssert o) m).1 =
        (if o.deviceNew = false then .error .badAlloc
        else if o.copyIn = false then .error hipMemcpyToSymbolFailed
        else if o.behaviour = .throwsOther then .error .other
        else if o.behaviour ≠ .assertsOnHost ∧ o.readBack = false then .error .systemError
        else if o.copyOut = false then .error hipMemcpyToSymbolFailed
        else if o.behaviour = .returns then .error didNotTrigger
        else .ok ()) ∧
      (run (assertStaticAssert o) m).2.allocs =
        (if o.deviceNew then m.allocs ++ [o.addr] else m.allocs) ∧
      (run (assertStaticAssert o) m).2.frees =
        (if o.deviceNew ∧ (o.copyIn = false ∨ o.behaviour ≠ .throwsOther ∧
            (o.behaviour = .assertsOnHost ∨ o.readBack = true))
          then m.frees ++ [o.addr] else m.frees) ∧
      (run (assertStaticAssert o) m).2.slot =
        (if o.deviceNew ∧ o.copyIn then
          (if o.behaviour ≠ .throwsOther ∧ (o.behaviour = .assertsOnHost ∨ o.readBack = true) ∧
              o.copyOut then 0 else o.addr)
          else m.slot) := by
  obtain ⟨n, i, b, r, c, a⟩ := o
  cases n
  · simp [assertStaticAssert]
  cases i
  · simp [assertStaticAssert]
  cases b
  case throwsOther => simp [assertStaticAssert]
  case assertsOnHost => cases c <;> simp [assertStaticAssert]
  all_goals
    cases r
    · simp [assertStaticAssert]
    · cases c <;> simp [assertStaticAssert]

/-- Every use of the macro, as the device sees it afterwards: nothing allocated; the object
freed, with the slot as it was, cleared, or still naming it after a failed second copy;
or the object left live with the slot naming it. -/
theorem assertStaticAssert_mem (o : Outcomes) (m : Mem) :
    ((run (assertStaticAssert o) m).2.allocs = m.allocs ∧
      (run (assertStaticAssert o) m).2.frees = m.frees ∧
      (run (assertStaticAssert o) m).2.slot = m.slot) ∨
    ((run (assertStaticAssert o) m).2.allocs = m.allocs ++ [o.addr] ∧
      (run (assertStaticAssert o) m).2.frees = m.frees ++ [o.addr] ∧
      ((run (assertStaticAssert o) m).2.slot = m.slot ∨
        (run (assertStaticAssert o) m).2.slot = if o.copyOut then 0 else o.addr)) ∨
    ((run (assertStaticAssert o) m).2.allocs = m.allocs ++ [o.addr] ∧
      (run (assertStaticAssert o) m).2.frees = m.frees ∧
      (run (assertStaticAssert o) m).2.slot = o.addr) := by
  obtain ⟨-, ha, hf, hs⟩ := run_assertStaticAssert o m
  rw [ha, hf, hs]
  cases hn : o.deviceNew
  · simp
  cases hi : o.copyIn
  · simp
  cases hc : o.copyOut <;> by_cases hx : o.behaviour ≠ .throwsOther ∧
    (o.behaviour = .assertsOnHost ∨ o.readBack = true) <;> simp [hx]

/-- The macro completes normally only after `X` failed an `assert_static`, and then it
has freed its object once and cleared the slot, whatever the runtime answered. -/
theorem assertStaticAssert_ok_sound {o : Outcomes} {m : Mem}
    (h : (run (assertStaticAssert o) m).1 = .ok ()) :
    (o.behaviour = .assertsOnHost ∨ o.behaviour = .assertsInKernel) ∧
      (run (assertStaticAssert o) m).2.frees = m.frees ++ [o.addr] ∧
      (run (assertStaticAssert o) m).2.slot = 0 := by
  obtain ⟨hr, -, hf, hs⟩ := run_assertStaticAssert o m
  rw [hr] at h
  rw [hf, hs]
  obtain ⟨n, i, b, r, c, a⟩ := o
  cases n <;> cases i <;> cases c <;> cases b <;> cases r <;> simp_all [didNotTrigger]

/-- What the macro reports depends on the runtime's answers and on `X` only, not on what
earlier code left on the device: `device_new` resets the object and the first copy points
the slot at it before `X` runs. -/
theorem assertStaticAssert_result_indep (o : Outcomes) (m m' : Mem) :
    (run (assertStaticAssert o) m).1 = (run (assertStaticAssert o) m').1 := by
  rw [(run_assertStaticAssert o m).1, (run_assertStaticAssert o m').1]

theorem assertStaticAssert_ok_sound_kernel :
    (Behaviour.assertsInKernel = .assertsOnHost ∨
        Behaviour.assertsInKernel = .assertsInKernel) ∧
      (run (assertStaticAssert ⟨true, true, .assertsInKernel, true, true, 16⟩)
        ⟨0, [], [], []⟩).2.frees = [] ++ [16] ∧
      (run (assertStaticAssert ⟨true, true, .assertsInKernel, true, true, 16⟩)
        ⟨0, [], [], []⟩).2.slot = 0 :=
  assertStaticAssert_ok_sound (o := ⟨true, true, .assertsInKernel, true, true, 16⟩) rfl

end RocThrust.Unittest
