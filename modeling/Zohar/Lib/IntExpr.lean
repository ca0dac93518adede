/-
Arithmetic expressions over a fixed-width integer type, under three readings: over the integers, with results
that wrap, and with checks that stop at the first result outside the type. An expression fits when the exact
result of each of its operations is in the type; the checks let exactly these pass, and then the three readings
agree.
-/
import Zohar.Lib.MachineInt

namespace Zohar.Lib

/-- A fixed-width integer type: its bounds, and the value it has for a result outside them. -/
structure IntType where
  lo : Int
  hi : Int
  wrap : Int → Int
  wrap_of_mem : ∀ {x : Int}, lo ≤ x → x ≤ hi → wrap x = x

namespace IntType

def i32 : IntType := ⟨i32Min, i32Max, wrapI32, wrapI32_of_mem⟩

def Mem (ty : IntType) (x : Int) : Prop := ty.lo ≤ x ∧ x ≤ ty.hi

instance (ty : IntType) (x : Int) : Decidable (ty.Mem x) := inferInstanceAs (Decidable (_ ∧ _))

@[simp] theorem mem_i32 {x : Int} : i32.Mem x ↔ i32Min ≤ x ∧ x ≤ i32Max := Iff.rfl

theorem wrap_eq_self {ty : IntType} {x : Int} (h : ty.Mem x) : ty.wrap x = x := ty.wrap_of_mem h.1 h.2

end IntType

/-! ## Operations -/

inductive IntOp where
  | add | sub | mul | quot | min
  deriving DecidableEq, Repr

namespace IntOp

def exact : IntOp → Int → Int → Int
  | add, a, b => a + b
  | sub, a, b => a - b
  | mul, a, b => a * b
  | quot, a, b => a.tdiv b
  | min, a, b => Min.min a b

/-- The quotient and the minimum of values of the type need no wrapping. -/
def wrapped (ty : IntType) : IntOp → Int → Int → Int
  | add, a, b => ty.wrap (a + b)
  | sub, a, b => ty.wrap (a - b)
  | mul, a, b => ty.wrap (a * b)
  | quot, a, b => a.tdiv b
  | min, a, b => Min.min a b

/-- The operation neither leaves the type nor divides by zero. -/
def Fits (ty : IntType) : IntOp → Int → Int → Prop
  | add, a, b => ty.Mem (a + b)
  | sub, a, b => ty.Mem (a - b)
  | mul, a, b => ty.Mem (a * b)
  | quot, a, b => b ≠ 0 ∧ ty.Mem (a.tdiv b)
  | min, _, _ => True

instance (ty : IntType) : ∀ (op : IntOp) (a b : Int), Decidable (op.Fits ty a b)
  | add, a, b => inferInstanceAs (Decidable (ty.Mem (a + b)))
  | sub, a, b => inferInstanceAs (Decidable (ty.Mem (a - b)))
  | mul, a, b => inferInstanceAs (Decidable (ty.Mem (a * b)))
  | quot, a, b => inferInstanceAs (Decidable (b ≠ 0 ∧ ty.Mem (a.tdiv b)))
  | min, _, _ => inferInstanceAs (Decidable True)

def checked (ty : IntType) (op : IntOp) (a b : Int) : Option Int := if op.Fits ty a b then some (op.exact a b) else none

theorem checked_eq_some_iff {ty : IntType} {op : IntOp} {a b v : Int} :
    op.checked ty a b = some v ↔ op.Fits ty a b ∧ op.exact a b = v := by
  unfold checked
  split <;> simp [*]

theorem wrapped_of_fits {ty : IntType} {op : IntOp} {a b : Int} (h : op.Fits ty a b) :
    op.wrapped ty a b = op.exact a b := by
  cases op with
  | add => exact IntType.wrap_eq_self h
  | sub => exact IntType.wrap_eq_self h
  | mul => exact IntType.wrap_eq_self h
  | quot => rfl
  | min => rfl

end IntOp

/-! ## Expressions -/

/-- An expression over values of the type. -/
inductive IntExpr where
  | lit (n : Int)
  | bin (op : IntOp) (a b : IntExpr)
  deriving DecidableEq, Repr

namespace IntExpr

instance : Coe Int IntExpr := ⟨lit⟩
instance : Add IntExpr := ⟨bin .add⟩
instance : Mul IntExpr := ⟨bin .mul⟩
instance : Div IntExpr := ⟨bin .quot⟩
instance : Min IntExpr := ⟨bin .min⟩

def exact : IntExpr → Int
  | lit n => n
  | bin op a b => op.exact a.exact b.exact

def wrapped (ty : IntType) : IntExpr → Int
  | lit n => n
  | bin op a b => op.wrapped ty (a.wrapped ty) (b.wrapped ty)

def checked (ty : IntType) : IntExpr → Option Int
  | lit n => some n
  | bin op a b => (a.checked ty).bind fun x => (b.checked ty).bind fun y => op.checked ty x y

/-- Each operation of the expression fits, at the exact values of its operands. -/
def Fits (ty : IntType) : IntExpr → Prop
  | lit _ => True
  | bin op a b => a.Fits ty ∧ b.Fits ty ∧ op.Fits ty a.exact b.exact

/-- Whether a given expression fits can be computed. -/
def decidableFits (ty : IntType) : ∀ e : IntExpr, Decidable (e.Fits ty)
  | lit _ => .isTrue trivial
  | bin op a b =>
    have := decidableFits ty a
    have := decidableFits ty b
    inferInstanceAs (Decidable (_ ∧ _ ∧ op.Fits ty a.exact b.exact))

instance (ty : IntType) (e : IntExpr) : Decidable (e.Fits ty) := decidableFits ty e

section
variable (a b : IntExpr) (ty : IntType)

@[simp] theorem exact_lit (n : Int) : (lit n).exact = n := rfl
@[simp] theorem exact_add : (a + b).exact = a.exact + b.exact := rfl
@[simp] theorem exact_mul : (a * b).exact = a.exact * b.exact := rfl
@[simp] theorem exact_div : (a / b).exact = a.exact.tdiv b.exact := rfl
@[simp] theorem exact_min : (min a b).exact = min a.exact b.exact := rfl

@[simp] theorem wrapped_lit (n : Int) : (lit n).wrapped ty = n := rfl
@[simp] theorem wrapped_add : (a + b).wrapped ty = ty.wrap (a.wrapped ty + b.wrapped ty) := rfl
@[simp] theorem wrapped_mul : (a * b).wrapped ty = ty.wrap (a.wrapped ty * b.wrapped ty) := rfl
@[simp] theorem wrapped_div : (a / b).wrapped ty = (a.wrapped ty).tdiv (b.wrapped ty) := rfl
@[simp] theorem wrapped_min : (min a b).wrapped ty = min (a.wrapped ty) (b.wrapped ty) := rfl

end

variable {ty : IntType}

/-- The checks pass exactly where the expression fits, and leave its exact value. -/
theorem checked_eq_some_iff {e : IntExpr} {v : Int} : e.checked ty = some v ↔ e.Fits ty ∧ e.exact = v := by
  induction e generalizing v with
  | lit n => simp [checked, Fits]
  | bin op a b iha ihb =>
    simp only [checked, Option.bind_eq_some_iff, iha, ihb, IntOp.checked_eq_some_iff, Fits, exact]
    constructor
    · rintro ⟨_, ⟨ha, rfl⟩, _, ⟨hb, rfl⟩, hop, rfl⟩
      exact ⟨⟨ha, hb, hop⟩, rfl⟩
    · rintro ⟨⟨ha, hb, hop⟩, rfl⟩
      exact ⟨_, ⟨ha, rfl⟩, _, ⟨hb, rfl⟩, hop, rfl⟩

theorem checked_isSome_iff {e : IntExpr} : (e.checked ty).isSome ↔ e.Fits ty := by
  simp [Option.isSome_iff_exists, checked_eq_some_iff]

/-- Where an expression fits, nothing wraps. -/
theorem wrapped_of_fits {e : IntExpr} (h : e.Fits ty) : e.wrapped ty = e.exact := by
  induction e with
  | lit n => rfl
  | bin op a b iha ihb =>
    obtain ⟨ha, hb, hop⟩ := h
    rw [wrapped, exact, iha ha, ihb hb]
    exact IntOp.wrapped_of_fits hop

/-! ## Sums -/

/-- Adding the terms of a list one by one. -/
def sum (e : IntExpr) (l : List Int) : IntExpr := l.foldl (fun e n => e + (n : IntExpr)) e

@[simp] theorem sum_nil (e : IntExpr) : e.sum [] = e := rfl

@[simp] theorem sum_cons (e : IntExpr) (n : Int) (l : List Int) : e.sum (n :: l) = (e + (n : IntExpr)).sum l := rfl

theorem sum_append (e : IntExpr) (l l' : List Int) : e.sum (l ++ l') = (e.sum l).sum l' := by
  simp [sum]

@[simp] theorem exact_sum (e : IntExpr) (l : List Int) : (e.sum l).exact = e.exact + l.sum := by
  induction l generalizing e with
  | nil => simp
  | cons n l ih => rw [sum_cons, ih, exact_add, exact_lit, List.sum_cons, add_assoc]

end IntExpr

end Zohar.Lib
