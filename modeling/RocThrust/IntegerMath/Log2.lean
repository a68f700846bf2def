import RocThrust.IntegerMath.Types

/-! `clz`, `is_power_of_2`, `log2` and `log2_ri` of `integer_math.h` on the bit
pattern of an `Integer` of width `w`, on the host and on the device. -/
namespace RocThrust.IntegerMath

/-- The `NV_IF_TARGET` switch of `clz`. The device intrinsic sees the signedness of
`Integer` through the conversion of `x` to `int`. -/
inductive Target where
  | host
  | device (signed : Bool)
  deriving DecidableEq, Repr

variable {w : ℕ}

/-- The host loop of `clz`, from bit `i - 1` down to bit `0`; `num_bits` when no bit is set. -/
def clzScan (x : BitVec w) : ℕ → BitVec w
  | 0 => BitVec.ofNat w w
  | i + 1 => if (1#w <<< i) &&& x ≠ 0 then BitVec.ofNat w (w - 1 - i) else clzScan x i

/-- Leading zero bits of `v` in an `n`-bit field; HIP's `__clz` is the case `n = 32`. -/
def leadingZeros : ℕ → ℕ → ℕ
  | 0, _ => 0
  | n + 1, v => if v.testBit n then 0 else leadingZeros n v + 1

/-- `x` as the `int` argument of `__clz`: extended by its sign or by zeros, or cut to
its low 32 bits. -/
def toInt32 (signed : Bool) (x : BitVec w) : BitVec 32 :=
  if signed then x.signExtend 32 else x.setWidth 32

def clz : Target → BitVec w → BitVec w
  | .host, x => clzScan x w
  | .device s, x => BitVec.ofNat w (leadingZeros 32 (toInt32 s x).toNat)

def isPowerOf2 (x : BitVec w) : Bool := 0 == (x &&& (x - 1))

def log2 (tg : Target) (x : BitVec w) : BitVec w := BitVec.ofNat w (w - 1) - clz tg x

def log2Ri (tg : Target) (x : BitVec w) : BitVec w :=
  if !isPowerOf2 x then log2 tg x + 1 else log2 tg x

/-- The loop's test `(Integer(1) << i) & x` is bit `i` of `x`. -/
theorem shift_and_ne_zero (x : BitVec w) {i : ℕ} (hi : i < w) :
    (1#w <<< i) &&& x ≠ 0 ↔ x.getLsbD i = true := by
  constructor
  · intro h
    by_contra hb
    refine h (BitVec.eq_of_getLsbD_eq fun j => ?_)
    by_cases hj : (j : ℕ) = i
    · simp [hj, hb]
    · simp [BitVec.getLsbD_shiftLeft, BitVec.getLsbD_one]
      omega
  · intro hb h0
    have := congrArg (fun v => v.getLsbD i) h0
    simp [BitVec.getLsbD_shiftLeft, BitVec.getLsbD_one, hi, hb] at this
    omega

theorem clzScan_eq (x : BitVec w) {n : ℕ} (hn : n ≤ w) :
    clzScan x n = BitVec.ofNat w (w - n + leadingZeros n x.toNat) := by
  induction n with
  | zero => simp [clzScan, leadingZeros]
  | succ n ih =>
    simp only [clzScan, leadingZeros, shift_and_ne_zero x (Nat.lt_of_succ_le hn),
      BitVec.testBit_toNat]
    split
    · congr 1; omega
    · rw [ih (by omega)]; congr 1; omega

@[simp] theorem clz_host (x : BitVec w) :
    clz .host x = BitVec.ofNat w (leadingZeros w x.toNat) := by
  simp [clz, clzScan_eq x le_rfl]

theorem testBit_of_two_pow_le {v k : ℕ} (h1 : 2 ^ k ≤ v) (h2 : v < 2 ^ (k + 1)) :
    v.testBit k = true := by
  have hv : v = 2 ^ k + (v - 2 ^ k) := by omega
  rw [hv, Nat.testBit_two_pow_add_eq, Nat.testBit_lt_two_pow (by rw [pow_succ] at h2; omega)]
  rfl

theorem log2_eq_of_bounds {v k : ℕ} (h1 : 2 ^ k ≤ v) (h2 : v < 2 ^ (k + 1)) : v.log2 = k := by
  have hv : v ≠ 0 := by have := Nat.one_le_two_pow (n := k); omega
  have hlt := (Nat.log2_lt hv).mpr h2
  have hge : ¬ v.log2 < k := fun h => by have := (Nat.log2_lt hv).mp h; omega
  omega

theorem leadingZeros_of_pos {n v : ℕ} (hv : 0 < v) (hlt : v < 2 ^ n) :
    leadingZeros n v = n - 1 - v.log2 := by
  induction n with
  | zero => simp at hlt; omega
  | succ n ih =>
    have hL := (Nat.log2_lt hv.ne').mpr hlt
    simp only [leadingZeros]
    split
    · rename_i hb
      have h1 : v.log2 = n :=
        log2_eq_of_bounds (Nat.testBit_implies_ge hb) hlt
      omega
    · rename_i hb
      have hlt' : v < 2 ^ n := Nat.lt_pow_two_of_testBit v fun i hi => by
        rcases Nat.eq_or_lt_of_le hi with rfl | hi
        · simpa using hb
        · exact Nat.testBit_lt_two_pow (lt_of_lt_of_le hlt (Nat.pow_le_pow_right (by omega) hi))
      have := (Nat.log2_lt hv.ne').mpr hlt'
      rw [ih hlt']
      omega

theorem one_le_width_of_ne_zero {x : BitVec w} (hx : x.toNat ≠ 0) : 1 ≤ w := by
  rcases w with _ | w
  · simp [BitVec.toNat_of_zero_length] at hx
  · omega

theorem toNat_one_of_width {x : BitVec w} (hx : x.toNat ≠ 0) : (1 : BitVec w).toNat = 1 :=
  (BitVec.toNat_ofNat 1 w).trans
    (Nat.mod_eq_of_lt (Nat.one_lt_two_pow (by have := one_le_width_of_ne_zero hx; omega)))

theorem log2_host_toNat {x : BitVec w} (hx : x.toNat ≠ 0) :
    (log2 .host x).toNat = x.toNat.log2 := by
  have hL : x.toNat.log2 < w := (Nat.log2_lt hx).mpr x.isLt
  have hw : w < 2 ^ w := Nat.lt_two_pow w
  rw [log2, clz_host, leadingZeros_of_pos (Nat.pos_of_ne_zero hx) x.isLt, BitVec.toNat_sub,
    BitVec.toNat_ofNat, BitVec.toNat_ofNat, Nat.mod_eq_of_lt (by omega : w - 1 < 2 ^ w),
    Nat.mod_eq_of_lt (by omega : w - 1 - x.toNat.log2 < 2 ^ w),
    show 2 ^ w - (w - 1 - x.toNat.log2) + (w - 1) = x.toNat.log2 + 2 ^ w by omega,
    Nat.add_mod_right, Nat.mod_eq_of_lt (by omega)]

/-- `v & (v - 1)` clears the lowest set bit, so it is zero exactly for powers of two. -/
theorem and_sub_one_eq_zero_iff {v : ℕ} (hv : v ≠ 0) : v &&& (v - 1) = 0 ↔ v = 2 ^ v.log2 := by
  have h1 := Nat.log2_self_le hv
  have h2 := Nat.lt_log2_self (n := v)
  constructor
  · intro h
    by_contra hne
    have hb1 := testBit_of_two_pow_le h1 h2
    have hb2 := testBit_of_two_pow_le (v := v - 1) (k := v.log2) (by omega) (by omega)
    have := congrArg (Nat.testBit · v.log2) h
    simp [Nat.testBit_and, hb1, hb2] at this
  · intro h
    generalize v.log2 = k at h
    subst h
    apply Nat.eq_of_testBit_eq
    intro i
    simp only [Nat.testBit_and, Nat.testBit_two_pow, Nat.testBit_two_pow_sub_one,
      Nat.zero_testBit, Bool.and_eq_false_iff, decide_eq_false_iff_not]
    omega

theorem isPowerOf2_iff {x : BitVec w} (hx : x.toNat ≠ 0) :
    isPowerOf2 x = true ↔ x.toNat = 2 ^ x.toNat.log2 := by
  have hlt := x.isLt
  have hsub : (x - 1).toNat = x.toNat - 1 := by
    rw [BitVec.toNat_sub, toNat_one_of_width hx,
      show 2 ^ w - 1 + x.toNat = x.toNat - 1 + 2 ^ w by omega,
      Nat.add_mod_right, Nat.mod_eq_of_lt (by omega)]
  rw [isPowerOf2, beq_iff_eq, eq_comm, BitVec.toNat_eq, BitVec.toNat_and, hsub]
  simp only [BitVec.ofNat_eq_ofNat, BitVec.toNat_ofNat, Nat.zero_mod]
  exact and_sub_one_eq_zero_iff hx

theorem log2Ri_host_toNat {x : BitVec w} (hx : x.toNat ≠ 0) :
    (log2Ri .host x).toNat =
      if x.toNat = 2 ^ x.toNat.log2 then x.toNat.log2 else x.toNat.log2 + 1 := by
  have hL : x.toNat.log2 < w := (Nat.log2_lt hx).mpr x.isLt
  have hw : w < 2 ^ w := Nat.lt_two_pow w
  by_cases hp : x.toNat = 2 ^ x.toNat.log2
  · simp only [log2Ri, (isPowerOf2_iff hx).mpr hp, Bool.not_true, Bool.false_eq_true,
      ↓reduceIte, log2_host_toNat hx, if_pos hp]
  · have hf : isPowerOf2 x = false := by rw [← Bool.not_eq_true, isPowerOf2_iff hx]; exact hp
    simp only [log2Ri, hf, hp, Bool.not_false, ↓reduceIte]
    rw [BitVec.toNat_add, log2_host_toNat hx, toNat_one_of_width hx, Nat.mod_eq_of_lt (by omega)]

/-- Bounds that make `r` the floor and `r'` the ceiling of `log2 v`. -/
def IsLog2Bounds (v r r' : ℕ) : Prop :=
  2 ^ r ≤ v ∧ v < 2 ^ (r + 1) ∧ v ≤ 2 ^ r' ∧ ∀ k, v ≤ 2 ^ k → r' ≤ k

theorem isLog2Bounds_log2 {v : ℕ} (hv : v ≠ 0) :
    IsLog2Bounds v v.log2 (if v = 2 ^ v.log2 then v.log2 else v.log2 + 1) := by
  have h1 := Nat.log2_self_le hv
  have h2 := Nat.lt_log2_self (n := v)
  refine ⟨h1, h2, ?_, fun k hk => ?_⟩
  · split <;> omega
  · have hk' : v.log2 ≤ k := by
      by_contra hlt
      have := Nat.pow_lt_pow_right (a := 2) (by omega) (Nat.lt_of_not_le hlt)
      omega
    split
    · exact hk'
    · rcases Nat.eq_or_lt_of_le hk' with h | h
      · rw [← h] at hk; omega
      · omega

/-- Host `log2` and `log2_ri` compute the floor and the ceiling of `log2 x` for every
positive value of every integer type. -/
theorem log2_log2Ri_host_exact (t : IntType) (x : ℤ) (h1 : 1 ≤ x) (hx : x ≤ t.max) :
    ∃ r r' : ℕ, t.read (log2 .host (t.pattern x)) = r ∧
      t.read (log2Ri .host (t.pattern x)) = r' ∧ IsLog2Bounds x.toNat r r' := by
  have hv := IntType.toNat_pattern (by omega) hx
  have hne : (t.pattern x).toNat ≠ 0 := by omega
  have hL : x.toNat.log2 < t.bits := hv ▸ (Nat.log2_lt hne).mpr (t.pattern x).isLt
  have hsmall : ∀ t : IntType, t.bits < 2 ^ (t.bits - 1) := by decide
  have hs := hsmall t
  refine ⟨_, _, IntType.read_of_lt ?_, IntType.read_of_lt ?_, ?_⟩
  · rw [log2_host_toNat hne, hv]; omega
  · rw [log2Ri_host_toNat hne, hv]; split <;> omega
  · rw [log2_host_toNat hne, log2Ri_host_toNat hne, hv]
    exact isLog2Bounds_log2 (by omega)

theorem log2_log2Ri_host_int_five :
    ∃ r r' : ℕ, IntType.int.read (log2 .host (IntType.int.pattern 5)) = r ∧
      IntType.int.read (log2Ri .host (IntType.int.pattern 5)) = r' ∧
        IsLog2Bounds (5 : ℤ).toNat r r' :=
  log2_log2Ri_host_exact IntType.int 5 (by decide) (by decide)

/-- For `unsigned long long x = 1` the host loop counts 63 leading zeros and the device
`__clz((int)1)` counts 31, so `log2` is `0` on the host and `32` on the device. -/
theorem clz_log2_device_uint64_one :
    clz .host (1#64) = 63#64 ∧ clz (.device false) (1#64) = 31#64 ∧
      log2 .host (1#64) = 0#64 ∧ log2 (.device false) (1#64) = 32#64 := by
  decide

end RocThrust.IntegerMath
