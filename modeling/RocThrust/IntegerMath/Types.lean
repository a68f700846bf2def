import Mathlib.Data.Fintype.Basic
import Mathlib.Tactic.DeriveFintype
import Mathlib.Tactic.Ring

/-! Fixed-width C++ integer types and the usual arithmetic conversions that
`integer_math.h` performs on them, on an LP64 target (`int` is 32 bits wide). -/
namespace RocThrust.IntegerMath

/-- Storage width `8 * sizeof(Integer)` of a standard integer type. -/
inductive Width where
  | w8 | w16 | w32 | w64
  deriving DecidableEq, Repr, Fintype

def Width.bits : Width → ℕ
  | .w8 => 8
  | .w16 => 16
  | .w32 => 32
  | .w64 => 64

/-- A standard integer type, by width and signedness. -/
structure IntType where
  width : Width
  signed : Bool
  deriving DecidableEq, Repr, Fintype

namespace IntType

def bits (t : IntType) : ℕ := t.width.bits

def int : IntType := ⟨.w32, true⟩
def uint32 : IntType := ⟨.w32, false⟩

def min (t : IntType) : ℤ := if t.signed then -2 ^ (t.bits - 1) else 0
def max (t : IntType) : ℤ := if t.signed then 2 ^ (t.bits - 1) - 1 else 2 ^ t.bits - 1

/-- Integer promotion: operands narrower than `int` are computed as `int`. -/
def promote (t : IntType) : IntType := if t.bits < 32 then int else t

/-- The common type of a binary operator. Of two promoted operands of different
signedness the unsigned one wins unless the signed one is strictly wider. -/
def common (a b : IntType) : IntType :=
  let a := a.promote
  let b := b.promote
  if a.signed = b.signed then (if a.bits < b.bits then b else a)
  else
    let s := if a.signed then a else b
    let u := if a.signed then b else a
    if u.bits < s.bits then s else u

/-- Conversion of a mathematical integer to `t`: modulo `2 ^ bits`, into the range of `t`. -/
def wrap (t : IntType) (v : ℤ) : ℤ :=
  if t.signed then (v + 2 ^ (t.bits - 1)) % 2 ^ t.bits - 2 ^ (t.bits - 1) else v % 2 ^ t.bits

/-- The value of an arithmetic operator computed in `t`: unsigned arithmetic wraps,
signed overflow is undefined (`none`). -/
def arith (t : IntType) (v : ℤ) : Option ℤ :=
  if t.signed then (if t.min ≤ v ∧ v ≤ t.max then some v else none) else some (wrap t v)

theorem min_nonpos (t : IntType) : t.min ≤ 0 := by
  revert t; decide

theorem max_nonneg (t : IntType) : 0 ≤ t.max := by
  revert t; decide

/-- The common type holds every value of both operand types. -/
theorem max_le_common (a b : IntType) : a.max ≤ (common a b).max ∧ b.max ≤ (common a b).max := by
  revert a b; decide

/-- A signed common type reaches at least as low as either operand type. -/
theorem min_common_le (a b : IntType) :
    (common a b).signed = true → (common a b).min ≤ a.min ∧ (common a b).min ≤ b.min := by
  revert a b; decide

theorem one_le_bits (t : IntType) : 1 ≤ t.bits := by
  revert t; decide

/-- Conversion leaves a value in range unchanged. -/
theorem wrap_of_mem {t : IntType} {v : ℤ} (hlo : t.min ≤ v) (hhi : v ≤ t.max) :
    wrap t v = v := by
  obtain ⟨k, hk⟩ : ∃ k, t.bits = k + 1 := ⟨t.bits - 1, by have := one_le_bits t; omega⟩
  have h2 : (2 : ℤ) ^ (k + 1) = 2 ^ k * 2 := pow_succ 2 k
  cases hs : t.signed <;>
    simp only [wrap, min, max, hs, hk, h2, Nat.add_sub_cancel, Bool.false_eq_true,
      ↓reduceIte] at * <;>
    rw [Int.emod_eq_of_lt] <;> omega

theorem arith_of_mem {t : IntType} {v : ℤ} (hlo : t.min ≤ v) (hhi : v ≤ t.max) :
    arith t v = some v := by
  unfold arith
  split
  · simp [hlo, hhi]
  · rw [wrap_of_mem hlo hhi]

/-- The bit pattern of a value of `t`. -/
def pattern (t : IntType) (x : ℤ) : BitVec t.bits := BitVec.ofInt t.bits x

/-- The value of `t` that a bit pattern stands for. -/
def read (t : IntType) (v : BitVec t.bits) : ℤ := if t.signed then v.toInt else v.toNat

theorem max_lt_two_pow (t : IntType) : t.max < 2 ^ t.bits := by
  revert t; decide

theorem toNat_pattern {t : IntType} {x : ℤ} (h0 : 0 ≤ x) (hx : x ≤ t.max) :
    (t.pattern x).toNat = x.toNat := by
  have hm := max_lt_two_pow t
  rw [pattern, BitVec.toNat_ofInt, Nat.cast_pow, Nat.cast_ofNat, Int.emod_eq_of_lt h0 (by omega)]

/-- Patterns below the sign bit read as their unsigned value in every type. -/
theorem read_of_lt {t : IntType} {v : BitVec t.bits} (h : v.toNat < 2 ^ (t.bits - 1)) :
    t.read v = v.toNat := by
  have h2 : 2 ^ t.bits = 2 ^ (t.bits - 1) * 2 := by
    rw [← pow_succ, Nat.sub_add_cancel (one_le_bits t)]
  unfold read
  split
  · rw [BitVec.toInt_eq_toNat_cond, if_pos (by omega)]
  · rfl

end IntType
end RocThrust.IntegerMath
