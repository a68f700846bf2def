import RocThrust.IntegerMath.Types

/-! `divide_ri`, `divide_rz`, `round_i` and `round_z` of `integer_math.h`: each
operator evaluated at the type the usual arithmetic conversions give it. -/
namespace RocThrust.IntegerMath
open IntType

/-- Type of `y - 1`: `Integer1` against the literal `1`, an `int`. -/
def decType (t1 : IntType) : IntType := common t1 int

/-- Type of `x + (y - 1)`. -/
def sumType (t0 t1 : IntType) : IntType := common t0 (decType t1)

/-- `decltype(divide_ri(x, y))`, the type of `(x + (y - 1)) / y`. -/
def divideRiType (t0 t1 : IntType) : IntType := common (sumType t0 t1) t1

/-- `decltype(round_i(x, y))`, the type of `y * divide_ri(x, y)`. -/
def roundIType (t0 t1 : IntType) : IntType := common t1 (divideRiType t0 t1)

/-- C++ `/` at type `t`: truncating, undefined for a zero divisor. -/
def divide (t : IntType) (a b : ℤ) : Option ℤ :=
  if wrap t b = 0 then none else arith t ((wrap t a).tdiv (wrap t b))

/-- `divide_ri(x, y)`, that is `(x + (y - 1)) / y`; `none` is undefined behaviour. -/
def divideRi (t0 t1 : IntType) (x y : ℤ) : Option ℤ := do
  let d ← arith (decType t1) (wrap (decType t1) y - 1)
  let s ← arith (sumType t0 t1) (wrap (sumType t0 t1) x + wrap (sumType t0 t1) d)
  divide (divideRiType t0 t1) s y

/-- `divide_rz(x, y)`, that is `x / y`. -/
def divideRz (t0 t1 : IntType) (x y : ℤ) : Option ℤ := divide (common t0 t1) x y

/-- `round_i(x, y)`, that is `y * divide_ri(x, y)`. -/
def roundI (t0 t1 : IntType) (x y : ℤ) : Option ℤ := do
  let q ← divideRi t0 t1 x y
  arith (roundIType t0 t1) (wrap (roundIType t0 t1) y * wrap (roundIType t0 t1) q)

/-- `round_z(x, y)`, that is `y * divide_rz(x, y)`. -/
def roundZ (t0 t1 : IntType) (x y : ℤ) : Option ℤ := do
  let q ← divideRz t0 t1 x y
  let t := common t1 (common t0 t1)
  arith t (wrap t y * wrap t q)

/-- `q = ⌈x / y⌉` over the integers: the least `q` with `x ≤ y * q`. -/
def IsCeilDiv (x y q : ℤ) : Prop := y * (q - 1) < x ∧ x ≤ y * q

/-- `m` is the least multiple of `y` that is at least `x`. -/
def IsLeastMultiple (x y m : ℤ) : Prop := y ∣ m ∧ x ≤ m ∧ m < x + y

/-- `m` is the greatest multiple of `y` that is at most `x`. -/
def IsGreatestMultiple (x y m : ℤ) : Prop := y ∣ m ∧ m ≤ x ∧ x < m + y

theorem isCeilDiv_ediv {x y : ℤ} (hy : 0 < y) : IsCeilDiv x y ((x + (y - 1)) / y) := by
  have h := Int.ediv_add_emod (x + (y - 1)) y
  have hr := Int.emod_nonneg (x + (y - 1)) hy.ne'
  have hr' := Int.emod_lt_of_pos (x + (y - 1)) hy
  constructor
  · rw [mul_sub]; omega
  · omega

theorem IsCeilDiv.unique {x y q q' : ℤ} (hy : 0 < y) (h : IsCeilDiv x y q)
    (h' : IsCeilDiv x y q') : q = q' := by
  have h1 : q - 1 < q' := Int.lt_of_mul_lt_mul_left (h.1.trans_le h'.2) hy.le
  have h2 : q' - 1 < q := Int.lt_of_mul_lt_mul_left (h'.1.trans_le h.2) hy.le
  omega

theorem IsLeastMultiple.eq_mul {x y m q : ℤ} (hy : 0 < y) (hm : IsLeastMultiple x y m)
    (hq : IsCeilDiv x y q) : m = y * q := by
  obtain ⟨⟨c, rfl⟩, hlo, hhi⟩ := hm
  have hc : IsCeilDiv x y c := ⟨by rw [mul_sub]; omega, hlo⟩
  rw [hc.unique hy hq]

/-- C++ `/` on a value in range and a positive divisor in range truncates towards zero. -/
theorem divide_eq_tdiv {t : IntType} {a b : ℤ} (ha : t.min ≤ a) (ha' : a ≤ t.max) (hb : 1 ≤ b)
    (hb' : b ≤ t.max) : divide t a b = some (a.tdiv b) := by
  have hm := min_nonpos t
  have hq : (0 ≤ a → 0 ≤ a.tdiv b ∧ a.tdiv b ≤ a) ∧ (a < 0 → a ≤ a.tdiv b ∧ a.tdiv b ≤ 0) := by
    have key : ∀ n : ℤ, 0 ≤ n → 0 ≤ n.tdiv b ∧ n.tdiv b ≤ n := fun n hn => by
      rw [Int.tdiv_eq_ediv hn (by omega)]
      exact ⟨Int.ediv_nonneg hn (by omega), Int.ediv_le_self _ hn⟩
    refine ⟨key a, fun h => ?_⟩
    have := key (-a) (by omega)
    rw [Int.neg_tdiv] at this
    omega
  rw [divide, wrap_of_mem (by omega) hb', wrap_of_mem ha ha', if_neg (by omega),
    arith_of_mem (by omega) (by omega)]

/-- On a non-negative value it is floor division. -/
theorem divide_of_mem {t : IntType} {a b : ℤ} (ha : 0 ≤ a) (ha' : a ≤ t.max) (hb : 1 ≤ b)
    (hb' : b ≤ t.max) : divide t a b = some (a / b) := by
  rw [divide_eq_tdiv (le_trans (min_nonpos t) ha) ha' hb hb', Int.tdiv_eq_ediv ha (by omega)]

/-- C++ `*` on two non-negative values in range whose product fits. -/
theorem mul_of_mem {t : IntType} {a b : ℤ} (ha : 0 ≤ a) (ha' : a ≤ t.max) (hb : 0 ≤ b)
    (hb' : b ≤ t.max) (hab : a * b ≤ t.max) : arith t (wrap t a * wrap t b) = some (a * b) := by
  have hm := min_nonpos t
  have hab' := Int.mul_nonneg ha hb
  rw [wrap_of_mem (by omega) ha', wrap_of_mem (by omega) hb', arith_of_mem (by omega) hab]

/-- For operands in range `y - 1` is exact, so `divide_ri` converts `x + (y - 1)` to the
sum's type and divides it by `y`. -/
theorem divideRi_eq_of_min_le {t0 t1 : IntType} {x y : ℤ} (hx : (sumType t0 t1).min ≤ x)
    (hx' : x ≤ t0.max) (hy : 1 ≤ y) (hy' : y ≤ t1.max) :
    divideRi t0 t1 x y =
      (arith (sumType t0 t1) (x + (y - 1))).bind fun s => divide (divideRiType t0 t1) s y := by
  have hd := max_le_common t1 int
  have hs := max_le_common t0 (decType t1)
  have m1 := min_nonpos (decType t1)
  have m2 := min_nonpos (sumType t0 t1)
  simp only [decType, sumType] at *
  simp only [divideRi, decType, sumType]
  rw [wrap_of_mem (by omega) (by omega), arith_of_mem (by omega) (by omega), Option.bind_eq_bind,
    Option.some_bind, wrap_of_mem (by omega) (by omega), wrap_of_mem (by omega) (by omega)]

theorem divideRi_eq {t0 t1 : IntType} {x y : ℤ} (hx : 0 ≤ x) (hx' : x ≤ t0.max) (hy : 1 ≤ y)
    (hy' : y ≤ t1.max) :
    divideRi t0 t1 x y =
      (arith (sumType t0 t1) (x + (y - 1))).bind fun s => divide (divideRiType t0 t1) s y :=
  divideRi_eq_of_min_le (le_trans (min_nonpos _) hx) hx' hy hy'

/-- With operands in range and a sum that fits its type, every operator of
`divide_ri` is exact, so it computes `(x + (y - 1)) / y` over the integers. -/
theorem divideRi_of_sum_le {t0 t1 : IntType} {x y : ℤ} (hx : 0 ≤ x) (hx' : x ≤ t0.max)
    (hy : 1 ≤ y) (hy' : y ≤ t1.max) (hsum : x + (y - 1) ≤ (sumType t0 t1).max) :
    divideRi t0 t1 x y = some ((x + (y - 1)) / y) := by
  have hq : (sumType t0 t1).max ≤ (divideRiType t0 t1).max ∧ t1.max ≤ (divideRiType t0 t1).max :=
    max_le_common _ _
  have hm := min_nonpos (sumType t0 t1)
  rw [divideRi_eq hx hx' hy hy', arith_of_mem (by omega) hsum, Option.some_bind]
  exact divide_of_mem (by omega) (by omega) hy (by omega)

theorem divideRi_isCeilDiv_of_sum_le {t0 t1 : IntType} {x y : ℤ} (hx : 0 ≤ x)
    (hx' : x ≤ t0.max) (hy : 1 ≤ y) (hy' : y ≤ t1.max)
    (hsum : x + (y - 1) ≤ (sumType t0 t1).max) :
    ∃ q, divideRi t0 t1 x y = some q ∧ IsCeilDiv x y q :=
  ⟨_, divideRi_of_sum_le hx hx' hy hy' hsum, isCeilDiv_ediv (by omega)⟩

/-- Under the same conditions `round_i` is the least multiple of `y` not below `x`,
whenever that multiple is representable in the result type. -/
theorem roundI_of_sum_le {t0 t1 : IntType} {x y m : ℤ} (hx : 0 ≤ x) (hx' : x ≤ t0.max)
    (hy : 1 ≤ y) (hy' : y ≤ t1.max) (hsum : x + (y - 1) ≤ (sumType t0 t1).max)
    (hm : IsLeastMultiple x y m) (hm' : m ≤ (roundIType t0 t1).max) :
    roundI t0 t1 x y = some m := by
  have hq : (sumType t0 t1).max ≤ (divideRiType t0 t1).max := (max_le_common _ _).1
  have hr : t1.max ≤ (roundIType t0 t1).max ∧ (divideRiType t0 t1).max ≤ (roundIType t0 t1).max :=
    max_le_common _ _
  have hdiv : (x + (y - 1)) / y ≤ x + (y - 1) := Int.ediv_le_self _ (by omega)
  have hdiv' : 0 ≤ (x + (y - 1)) / y := Int.ediv_nonneg (by omega) (by omega)
  have hmq := hm.eq_mul (by omega) (isCeilDiv_ediv (y := y) (x := x) (by omega))
  rw [roundI, divideRi_of_sum_le hx hx' hy hy' hsum, Option.bind_eq_bind, Option.some_bind,
    mul_of_mem (by omega) (by omega) hdiv' (by omega) (hmq ▸ hm'), hmq]

/-- When `x + (y - 1)` fits the type of the sum, `divide_ri` rounds `x / y` towards
+infinity and `round_i` is the least multiple of `y` not below `x`, whenever that
multiple fits the result type. -/
theorem divideRi_roundI_exact_of_sum_le (t0 t1 : IntType) (x y : ℤ) (hx : 0 ≤ x)
    (hx' : x ≤ t0.max) (hy : 1 ≤ y) (hy' : y ≤ t1.max)
    (hsum : x + (y - 1) ≤ (sumType t0 t1).max) :
    (∃ q, divideRi t0 t1 x y = some q ∧ IsCeilDiv x y q) ∧
      ∀ m, IsLeastMultiple x y m → m ≤ (roundIType t0 t1).max → roundI t0 t1 x y = some m :=
  ⟨divideRi_isCeilDiv_of_sum_le hx hx' hy hy' hsum,
    fun _ hm hm' => roundI_of_sum_le hx hx' hy hy' hsum hm hm'⟩

theorem divideRi_roundI_exact_ten_three :
    (∃ q, divideRi uint32 uint32 10 3 = some q ∧ IsCeilDiv 10 3 q) ∧
      ∀ m, IsLeastMultiple 10 3 m → m ≤ (roundIType uint32 uint32).max →
        roundI uint32 uint32 10 3 = some m :=
  divideRi_roundI_exact_of_sum_le uint32 uint32 10 3 (by decide) (by decide) (by decide)
    (by decide) (by decide)

/-- For two `unsigned int` operands, `x = 2^32 - 1` and `y = 2` make `x + (y - 1)`
wrap to `0`, so `divide_ri` returns `0` where rounding towards +infinity gives `2^31`. -/
theorem divideRi_uint32_max_wraps :
    ¬ ∀ t0 t1 : IntType, ∀ x y : ℤ, 0 ≤ x → x ≤ t0.max → 1 ≤ y → y ≤ t1.max →
      (∃ q, divideRi t0 t1 x y = some q ∧ IsCeilDiv x y q) ∧
        ∀ m, IsLeastMultiple x y m → m ≤ (roundIType t0 t1).max →
          roundI t0 t1 x y = some m := by
  intro h
  obtain ⟨⟨q, hq, hc⟩, -⟩ :=
    h uint32 uint32 (2 ^ 32 - 1) 2 (by decide) (by decide) (by decide) (by decide)
  have h0 : divideRi uint32 uint32 (2 ^ 32 - 1) 2 = some 0 := by decide
  rw [h0, Option.some_inj] at hq
  subst hq
  exact absurd hc.2 (by decide)

/-- Past the maximum of an unsigned sum type, `x + (y - 1)` wraps exactly once and
`divide_ri` divides the wrapped sum. -/
theorem divideRi_of_sum_wraps {t0 t1 : IntType} {x y : ℤ}
    (hs : (sumType t0 t1).signed = false) (hx : 0 ≤ x) (hx' : x ≤ t0.max) (hy : 1 ≤ y)
    (hy' : y ≤ t1.max) (hover : (sumType t0 t1).max < x + (y - 1)) :
    divideRi t0 t1 x y = some ((x + (y - 1) - 2 ^ (sumType t0 t1).bits) / y) := by
  have hq : (sumType t0 t1).max ≤ (divideRiType t0 t1).max ∧ t1.max ≤ (divideRiType t0 t1).max :=
    max_le_common _ _
  have hmax : (sumType t0 t1).max = 2 ^ (sumType t0 t1).bits - 1 := by simp [IntType.max, hs]
  have hx0 : t0.max ≤ (sumType t0 t1).max := (max_le_common t0 (decType t1)).1
  have hy0 : t1.max ≤ (sumType t0 t1).max :=
    (max_le_common t1 int).1.trans (max_le_common t0 (decType t1)).2
  have hwrap : wrap (sumType t0 t1) (x + (y - 1)) = x + (y - 1) - 2 ^ (sumType t0 t1).bits := by
    rw [wrap, if_neg (by simp [hs]), ← Int.emod_sub_cancel, Int.emod_eq_of_lt] <;> omega
  rw [divideRi_eq hx hx' hy hy', arith, if_neg (by simp [hs]), hwrap, Option.some_bind]
  exact divide_of_mem (by omega) (by omega) hy (by omega)

theorem divideRi_of_sum_wraps_uint32 :
    divideRi uint32 uint32 (2 ^ 32 - 1) 2 =
      some ((2 ^ 32 - 1 + (2 - 1) - 2 ^ (sumType uint32 uint32).bits) / 2) :=
  divideRi_of_sum_wraps (by decide) (by decide) (by decide) (by decide) (by decide) (by decide)

/-- `x + (y - 1)` truncated towards zero, for a negative `x`: `⌈x / y⌉` when `-y < x` or
`y` divides `x - 1`, and one more otherwise. -/
theorem isCeilDiv_tdiv_sub {x y : ℤ} (hy : 1 ≤ y) (hx : x < 0) :
    IsCeilDiv x y ((x + (y - 1)).tdiv y - if -y < x ∨ y ∣ x - 1 then 0 else 1) := by
  by_cases hsmall : -y < x
  · have hq : (x + (y - 1)).tdiv y = 0 := by
      rw [Int.tdiv_eq_ediv (by omega) (by omega), Int.ediv_eq_zero_of_lt (by omega) (by omega)]
    rw [hq, if_pos (.inl hsmall), IsCeilDiv]
    omega
  · set n := -(x + (y - 1)) with hn
    have hk := Int.ediv_add_emod n y
    have hr := Int.emod_nonneg n (by omega : y ≠ 0)
    have hr' := Int.emod_lt_of_pos n (by omega : 0 < y)
    have hq : (x + (y - 1)).tdiv y = -(n / y) := by
      rw [show x + (y - 1) = -n by omega, Int.neg_tdiv, Int.tdiv_eq_ediv (by omega) (by omega)]
    have hdvd : y ∣ x - 1 ↔ n % y = 0 := by
      rw [← Int.dvd_iff_emod_eq_zero, show x - 1 = -(y + n) by omega, Int.dvd_neg,
        Int.dvd_add_right (Int.dvd_refl y)]
    simp only [hq, hsmall, hdvd, false_or, IsCeilDiv]
    split_ifs <;> simp only [mul_sub, mul_neg, mul_one, mul_zero, sub_zero] <;> omega

theorem isCeilDiv_tdiv_of_neg {x y : ℤ} (hy : 1 ≤ y) (hx : x < 0) :
    (IsCeilDiv x y ((x + (y - 1)).tdiv y) ↔ -y < x ∨ y ∣ x - 1) ∧
      (¬(-y < x ∨ y ∣ x - 1) → IsCeilDiv x y ((x + (y - 1)).tdiv y - 1)) := by
  have hc := isCeilDiv_tdiv_sub hy hx
  refine ⟨⟨fun h => ?_, fun h => by rwa [if_pos h, sub_zero] at hc⟩,
    fun h => by rwa [if_neg h] at hc⟩
  by_contra hn
  rw [if_neg hn] at hc
  have := h.unique (by omega) hc
  omega

/-- In signed arithmetic `divide_ri` truncates `x + (y - 1)` towards zero: for a negative
numerator it is `⌈x / y⌉` only when `-y < x` or `y` divides `x - 1`, and one more
otherwise. -/
theorem divideRi_of_neg {t0 t1 : IntType} {x y : ℤ} (hs : (sumType t0 t1).signed = true)
    (hd : (divideRiType t0 t1).signed = true) (hx : t0.min ≤ x) (hx0 : x < 0) (hy : 1 ≤ y)
    (hy' : y ≤ t1.max) :
    divideRi t0 t1 x y = some ((x + (y - 1)).tdiv y) ∧
      (IsCeilDiv x y ((x + (y - 1)).tdiv y) ↔ -y < x ∨ y ∣ x - 1) ∧
      (¬(-y < x ∨ y ∣ x - 1) → IsCeilDiv x y ((x + (y - 1)).tdiv y - 1)) := by
  have hsm : (sumType t0 t1).min ≤ t0.min := (min_common_le t0 (decType t1) hs).1
  have hdm : (divideRiType t0 t1).min ≤ (sumType t0 t1).min :=
    (min_common_le (sumType t0 t1) t1 hd).1
  have hy0 : t1.max ≤ (sumType t0 t1).max :=
    (max_le_common t1 int).1.trans (max_le_common t0 (decType t1)).2
  have hq : (sumType t0 t1).max ≤ (divideRiType t0 t1).max ∧
      t1.max ≤ (divideRiType t0 t1).max := max_le_common _ _
  refine ⟨?_, isCeilDiv_tdiv_of_neg hy hx0⟩
  rw [divideRi_eq_of_min_le (by omega) (by have := max_nonneg t0; omega) hy hy',
    arith_of_mem (by omega) (by omega), Option.some_bind]
  exact divide_eq_tdiv (by omega) (by omega) hy (by omega)

theorem divideRi_of_neg_int :
    divideRi int int (-4) 3 = some ((-4 + (3 - 1)).tdiv 3) ∧
      (IsCeilDiv (-4) 3 ((-4 + (3 - 1)).tdiv 3) ↔ -3 < (-4 : ℤ) ∨ (3 : ℤ) ∣ -4 - 1) ∧
      (¬(-3 < (-4 : ℤ) ∨ (3 : ℤ) ∣ -4 - 1) →
        IsCeilDiv (-4) 3 ((-4 + (3 - 1)).tdiv 3 - 1)) :=
  divideRi_of_neg (by decide) (by decide) (by decide) (by decide) (by decide) (by decide)

/-- `round_z` cannot overflow on operands in range: every intermediate is at most `x`. -/
theorem roundZ_of_mem {t0 t1 : IntType} {x y : ℤ} (hx : 0 ≤ x) (hx' : x ≤ t0.max)
    (hy : 1 ≤ y) (hy' : y ≤ t1.max) : roundZ t0 t1 x y = some (y * (x / y)) := by
  have hc := max_le_common t0 t1
  have ht := max_le_common t1 (common t0 t1)
  have hq : x / y ≤ x := Int.ediv_le_self _ hx
  have hq' : 0 ≤ x / y := Int.ediv_nonneg hx (by omega)
  have hm : y * (x / y) ≤ x := Int.mul_ediv_self_le (by omega)
  simp only [roundZ, divideRz]
  rw [divide_of_mem hx (by omega) hy (by omega), Option.bind_eq_bind, Option.some_bind,
    mul_of_mem (by omega) (by omega) hq' (by omega) (by omega)]

theorem roundZ_isGreatestMultiple {t0 t1 : IntType} {x y : ℤ} (hx : 0 ≤ x)
    (hx' : x ≤ t0.max) (hy : 1 ≤ y) (hy' : y ≤ t1.max) :
    ∃ m, roundZ t0 t1 x y = some m ∧ IsGreatestMultiple x y m :=
  ⟨_, roundZ_of_mem hx hx' hy hy',
    dvd_mul_right y _, Int.mul_ediv_self_le (by omega), Int.lt_mul_ediv_self_add (by omega)⟩

theorem roundZ_isGreatestMultiple_uint64 :
    ∃ m, roundZ ⟨.w64, false⟩ ⟨.w64, false⟩ (2 ^ 64 - 1) 2 = some m ∧
      IsGreatestMultiple (2 ^ 64 - 1) 2 m :=
  roundZ_isGreatestMultiple (by decide) (by decide) (by decide) (by decide)

end RocThrust.IntegerMath
