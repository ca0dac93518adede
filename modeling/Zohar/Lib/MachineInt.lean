/-
Fixed-width machine integers as integers: the bounds of the types, two's-complement wrapping of
an unchecked operation, saturation, and the `clamp` of the standard library, which has no result
on an empty range. A value of a fixed-width type is its integer; an operation that can leave the
range says here what it returns.
-/
import Mathlib.Tactic

namespace Zohar.Lib

/-! ## Bounds -/

def i32Min : Int := -2147483648
def i32Max : Int := 2147483647
def u32Max : Int := 4294967295
def i64Min : Int := -9223372036854775808
def i64Max : Int := 9223372036854775807
def i128Min : Int := -170141183460469231731687303715884105728
def i128Max : Int := 170141183460469231731687303715884105727
def u64Max : Nat := 2 ^ 64 - 1

/-- The values of `i32`. -/
abbrev I32 := {x : Int // i32Min ≤ x ∧ x ≤ i32Max}

/-! ## Wrapping -/

/-- The 32-bit two's-complement value of an integer: the result of an unchecked operation. -/
def wrapI32 (x : Int) : Int := Int.bmod x 4294967296

/-- The 64-bit two's-complement value of an integer: the result of a narrowing cast. -/
def wrapI64 (x : Int) : Int := Int.bmod x 18446744073709551616

def addI32 (a b : Int) : Int := wrapI32 (a + b)
def subI32 (a b : Int) : Int := wrapI32 (a - b)
def mulI32 (a b : Int) : Int := wrapI32 (a * b)

theorem wrapI32_of_mem {x : Int} (hl : i32Min ≤ x) (hh : x ≤ i32Max) : wrapI32 x = x := by
  unfold i32Min at hl; unfold i32Max at hh; unfold wrapI32
  exact Int.bmod_eq_of_le (by omega) (by omega)

theorem wrapI64_of_mem {x : Int} (hl : i64Min ≤ x) (hh : x ≤ i64Max) : wrapI64 x = x := by
  unfold i64Min at hl; unfold i64Max at hh; unfold wrapI64
  exact Int.bmod_eq_of_le (by omega) (by omega)

theorem wrapI32_mem (x : Int) : i32Min ≤ wrapI32 x ∧ wrapI32 x ≤ i32Max := by
  unfold wrapI32 i32Min i32Max
  have h1 := Int.le_bmod (x := x) (m := 4294967296) (by omega)
  have h2 := Int.bmod_lt (x := x) (m := 4294967296) (by omega)
  omega

theorem wrapI32_add_left (a b : Int) : wrapI32 (wrapI32 a + b) = wrapI32 (a + b) := by
  unfold wrapI32; exact Int.bmod_add_bmod

theorem wrapI32_add_right (a b : Int) : wrapI32 (a + wrapI32 b) = wrapI32 (a + b) := by
  unfold wrapI32; exact Int.add_bmod_bmod

theorem addI32_of_mem {a b : Int} (hl : i32Min ≤ a + b) (hh : a + b ≤ i32Max) : addI32 a b = a + b :=
  wrapI32_of_mem hl hh

theorem addI32_assoc (a b c : Int) : addI32 (addI32 a b) c = addI32 a (addI32 b c) := by
  unfold addI32; rw [wrapI32_add_left, wrapI32_add_right, Int.add_assoc]

/-- Adding the terms of a list one by one, each addition wrapping, is one wrapped sum. -/
theorem foldl_addI32 : ∀ (l : List Int) (x : Int), l ≠ [] → l.foldl addI32 x = wrapI32 (x + l.sum)
  | [], _, h => absurd rfl h
  | [a], x, _ => by simp [addI32]
  | a :: b :: l, x, _ => by
    rw [List.foldl_cons, foldl_addI32 (b :: l) _ (List.cons_ne_nil _ _), List.sum_cons (a := a), addI32,
      wrapI32_add_left, Int.add_assoc]

/-! ## Saturation and clamping -/

def satI32 (x : Int) : Int := max i32Min (min x i32Max)
def satI64 (x : Int) : Int := max i64Min (min x i64Max)
def satI128 (x : Int) : Int := max i128Min (min x i128Max)

theorem satI32_of_mem {x : Int} (hl : i32Min ≤ x) (hh : x ≤ i32Max) : satI32 x = x := by
  unfold satI32; omega

theorem satI32_mem (x : Int) : i32Min ≤ satI32 x ∧ satI32 x ≤ i32Max := by
  unfold satI32 i32Min i32Max; omega

/-- `saturating_add` of a `u64`, which is how an instant is moved by a delay. -/
def satAdd (now delay : Nat) : Nat := min (now + delay) u64Max

theorem satAdd_of_le {now delay : Nat} (h : now + delay ≤ u64Max) : satAdd now delay = now + delay := min_eq_left h

theorem le_satAdd {t delay : Nat} (h : t ≤ u64Max) : t ≤ satAdd t delay := le_min (Nat.le_add_right t delay) h

theorem satAdd_mono {now now' delay delay' : Nat} (hnow : now ≤ now') (hdelay : delay ≤ delay') :
    satAdd now delay ≤ satAdd now' delay' := by
  unfold satAdd
  omega

/-- `Ord::clamp`: asserts `lo ≤ hi`, so an empty range is a panic (`none`). -/
def clamp? (lo hi x : Int) : Option Int := if lo ≤ hi then some (max lo (min x hi)) else none

theorem clamp?_eq_some {lo hi x y : Int} : clamp? lo hi x = some y ↔ lo ≤ hi ∧ max lo (min x hi) = y := by
  unfold clamp?; split <;> simp [*]

/-- Clamping twice to the same range changes nothing more. -/
theorem clamp?_clamp? {lo hi x y : Int} (h : clamp? lo hi x = some y) : clamp? lo hi y = some y := by
  obtain ⟨h1, h2⟩ := clamp?_eq_some.1 h
  exact clamp?_eq_some.2 ⟨h1, by omega⟩

/-- `i64` to `u32` by clamping. -/
def clampI64ToU32 (x : Int) : Nat := (max 0 (min x u32Max)).toNat

theorem clampI64ToU32_natCast {n : Nat} (h : (n : Int) ≤ u32Max) : clampI64ToU32 n = n := by
  unfold clampI64ToU32; omega

theorem clampI64ToU32_le (x : Int) : (clampI64ToU32 x : Int) ≤ u32Max := by
  unfold clampI64ToU32 u32Max; omega

/-- `u32` to `i32` by clamping at the top. -/
def clampU32ToI32 (n : Nat) : Int := min (n : Int) i32Max

/-! ## Ranges -/

/-- `random_range(lo..=hi)` for a range that is not empty, by a number of the generator. -/
def randomBetween (roll lo hi : Nat) : Nat := lo + roll % (hi - lo + 1)

theorem randomBetween_mem (roll : Nat) {lo hi : Nat} (h : lo ≤ hi) :
    lo ≤ randomBetween roll lo hi ∧ randomBetween roll lo hi ≤ hi := by
  have hlt : roll % (hi - lo + 1) < hi - lo + 1 := Nat.mod_lt _ (Nat.succ_pos _)
  unfold randomBetween
  omega

end Zohar.Lib
