import ContentOrchestrator.Lib.Doubles
import ContentOrchestrator.Model.Text
import Mathlib.Data.List.Infix

/-! # JSON values as the engine compares and converts them

Worker results and transition conditions are JSON. A number is an integer or a double,
a boolean compares as the number 0 or 1, and an ordering between unlike values raises
as the interpreter does. `Decimal` is the target of the worker-reported cost: a text may
also denote an infinity or NaN. -/

namespace ContentOrchestrator

open Lib (Double)

/-- What the engine, the interpreter or the database raises. -/
inductive OrchestrationError
  | valueError (message : String)
  | keyError (key : String)
  | typeError (message : String)
  | attributeError (message : String)
  | dataError (text : String)
  | invalidOperation
  | notImplemented (message : String)
  | integrityError (constraint : String)
  | leaseNotOwned
  | leaseConflict (code : String)
  | reviewGateNotFound
  | reviewGateDelivery
  | spendBudgetExceeded
  | multipleResultsFound
  | runtimeError (message : String)
deriving DecidableEq, Repr

/-- An error of the database aborts its transaction; no handler can continue it. -/
def OrchestrationError.abortsTransaction : OrchestrationError → Bool
  | integrityError _ | dataError _ => true
  | _ => false

/-- A number as `json.loads` reads it: a fraction or an exponent makes it a double. A column holds
neither infinities nor NaN. -/
inductive JsonNumber
  | int (n : Int)
  | float (x : Double)
deriving DecidableEq, Repr

namespace JsonNumber

def ofBool (b : Bool) : JsonNumber := int (if b then 1 else 0)

/-- The value in units of the smallest positive double. -/
def scaled : JsonNumber → Int
  | int n => n * 2 ^ 1074
  | float x => x.scaled

def compare : JsonNumber → JsonNumber → Ordering
  | int m, int n => Ord.compare m n
  | a, b => Ord.compare a.scaled b.scaled

end JsonNumber

inductive Json
  | null
  | bool (b : Bool)
  | num (n : JsonNumber)
  | str (s : String)
  | arr (items : List Json)
  | obj (fields : List (String × Json))
deriving Inhabited

namespace Json

mutual

/-- `a == b`. -/
def pyEq : Json → Json → Bool
  | null, null => true
  | bool a, bool b => a == b
  | bool a, num n => (JsonNumber.ofBool a).compare n == .eq
  | num n, bool b => n.compare (.ofBool b) == .eq
  | num m, num n => m.compare n == .eq
  | str s, str t => s == t
  | arr xs, arr ys => pyEqItems xs ys
  | obj xs, obj ys => xs.length == ys.length && pyEqFields xs ys
  | _, _ => false

def pyEqItems : List Json → List Json → Bool
  | [], [] => true
  | x :: xs, y :: ys => pyEq x y && pyEqItems xs ys
  | _, _ => false

def pyEqFields : List (String × Json) → List (String × Json) → Bool
  | [], _ => true
  | (k, x) :: xs, ys =>
    (match ys.lookup k with
      | some y => pyEq x y
      | none => false) && pyEqFields xs ys

end

inductive OrderOp
  | gt | gte | lt | lte
deriving DecidableEq, Repr

def OrderOp.holds : OrderOp → Ordering → Bool
  | gt, .gt => true
  | gte, .gt | gte, .eq => true
  | lt, .lt => true
  | lte, .lt | lte, .eq => true
  | _, _ => false

/-- Text order: code point by code point, a proper prefix first. -/
def compareText : List Char → List Char → Ordering
  | [], [] => .eq
  | [], _ :: _ => .lt
  | _ :: _, [] => .gt
  | x :: xs, y :: ys =>
    match Ord.compare x.toNat y.toNat with
    | .eq => compareText xs ys
    | o => o

mutual

/-- `a > b` and its siblings; unlike values have no order. -/
def pyOrder (op : OrderOp) : Json → Json → Except OrchestrationError Bool
  | bool a, bool b => .ok (op.holds ((JsonNumber.ofBool a).compare (.ofBool b)))
  | bool a, num n => .ok (op.holds ((JsonNumber.ofBool a).compare n))
  | num n, bool b => .ok (op.holds (n.compare (.ofBool b)))
  | num m, num n => .ok (op.holds (m.compare n))
  | str s, str t => .ok (op.holds (compareText s.toList t.toList))
  | arr xs, arr ys => pyOrderItems op xs ys
  | _, _ => .error (.typeError "not supported between instances")

/-- Lists order by their first unequal items, else by length. -/
def pyOrderItems (op : OrderOp) : List Json → List Json → Except OrchestrationError Bool
  | [], [] => .ok (op.holds .eq)
  | [], _ :: _ => .ok (op.holds .lt)
  | _ :: _, [] => .ok (op.holds .gt)
  | x :: xs, y :: ys => if pyEq x y then pyOrderItems op xs ys else pyOrder op x y

end

/-- `needle in text` for two texts. -/
def containsText (text needle : String) : Bool :=
  text.toList.tails.any fun t => needle.toList.isPrefixOf t

/-- `a in b`. -/
def pyIn (a : Json) : Json → Except OrchestrationError Bool
  | arr ys => .ok (ys.any (pyEq a))
  | obj fields =>
    match a with
    | str k => .ok (fields.any fun f => f.1 == k)
    | arr _ | obj _ => .error (.typeError "unhashable type")
    | _ => .ok false
  | str t =>
    match a with
    | str s => .ok (containsText t s)
    | _ => .error (.typeError "'in <string>' requires string as left operand")
  | _ => .error (.typeError "argument is not iterable")

/-- `value.get(part) if isinstance(value, dict) else None`. -/
def get (part : String) : Json → Json
  | obj fields => (fields.lookup part).getD null
  | _ => null

end Json

/-! ## Decimals -/

/-- `mantissa · 10 ^ exponent`; zeros differ by their exponents. -/
structure DecimalNumber where
  mantissa : Int
  exponent : Int
deriving DecidableEq, Repr

namespace DecimalNumber

/-- The place of the leading digit, that of the only one for a zero. -/
def adjusted (n : DecimalNumber) : Int := n.exponent + Nat.log 10 n.mantissa.natAbs

/-- The exponents the library holds without rounding. -/
def isExact (n : DecimalNumber) : Bool :=
  decide (n.adjusted ≤ 999999999999999999 ∧ -1999999999999999997 ≤ n.exponent)

/-- What the driver sends as a numeric: up to 16383 digits after the point, and up to 2 ^ 16
groups of four before it. -/
def isSendable (n : DecimalNumber) : Bool :=
  decide (-16383 ≤ n.exponent ∧ n.adjusted < 4 * 2 ^ 16)

/-- Whether the number is greater than an amount on the money grid. -/
def exceeds (n : DecimalNumber) (amount : Nat) : Bool :=
  decide ((amount : Int) * 10 ^ (-4 - n.exponent).toNat < n.mantissa * 10 ^ (n.exponent + 4).toNat)

end DecimalNumber

inductive Decimal
  | finite (n : DecimalNumber)
  | infinity (negative : Bool)
  | nan
deriving DecidableEq, Repr

namespace Decimal

/-- A text as the constructor scans it: blanks around it and underscores are ignored, digits
of every script count, letters have no case. -/
def numericAsAscii (text : String) : List Char :=
  ((strip text.toList).filter (· ≠ '_')).map fun c =>
    match digit? c with
    | some d => Char.ofNat (48 + d)
    | none => c.toLower

/-- Digits with at most one point among them, at least one digit. -/
def coefficient? (cs : List Char) : Option DecimalNumber :=
  match cs.splitOnP (· == '.') with
  | [whole] => if whole.isEmpty then none else do return ⟨← natOfDigits whole, 0⟩
  | [whole, frac] =>
    if whole.isEmpty && frac.isEmpty then none
    else do return ⟨← natOfDigits (whole ++ frac), -frac.length⟩
  | _ => none

def exponent? (cs : List Char) : Option Int :=
  let (negative, ds) := splitSign cs
  if ds.isEmpty then none
  else (natOfDigits ds).map fun (n : Nat) => if negative then -(n : Int) else (n : Int)

/-- A NaN of either kind, with or without diagnostic digits. -/
def isNaN (body : List Char) : Bool :=
  ["nan", "snan"].any fun name =>
    name.toList.isPrefixOf body && (body.drop name.length).all Char.isDigit

/-- A signed coefficient with or without an exponent. -/
def number? (negative : Bool) (body : List Char) : Option DecimalNumber := do
  let (n, e) ← match body.splitOnP (· == 'e') with
    | [c] => do some (← coefficient? c, (0 : Int))
    | [c, e] => do some (← coefficient? c, ← exponent? e)
    | _ => none
  return ⟨if negative then -n.mantissa else n.mantissa, n.exponent + e⟩

/-- `Decimal(text)`, which must not round. -/
def ofText? (text : String) : Option Decimal :=
  let (negative, body) := splitSign (numericAsAscii text)
  if body = "inf".toList ∨ body = "infinity".toList then some (infinity negative)
  else if isNaN body then some nan
  else ((number? negative body).filter DecimalNumber.isExact).map finite

/-- The value of `Decimal(repr(x))`. -/
def ofDouble (x : Double) : DecimalNumber :=
  let (digits, place) := x.shortest
  ⟨if x.negative then -(digits : Int) else digits, place⟩

/-- A double with a minus sign that is not a zero, and no other, is a negative decimal. -/
theorem ofDouble_neg {x : Double} :
    (ofDouble x).mantissa < 0 ↔ x.negative = true ∧ x.significand ≠ 0 := by
  have hzero : x.shortest.1 = 0 ↔ x.significand = 0 := Double.shortest_eq_zero
  unfold ofDouble
  generalize x.shortest = found at hzero ⊢
  obtain ⟨digits, place⟩ := found
  dsimp only at hzero ⊢
  cases x.negative with
  | true =>
    simp only [if_true, true_and]
    omega
  | false =>
    simp only [Bool.false_eq_true, if_false, false_and, iff_false]
    omega

/-- Every double is within the reach of the driver. -/
theorem ofDouble_isSendable (x : Double) : (ofDouble x).isSendable = true := by
  obtain ⟨hplace, hlead⟩ := x.shortest_bounds
  unfold ofDouble DecimalNumber.isSendable DecimalNumber.adjusted
  generalize x.shortest = found at hplace hlead ⊢
  obtain ⟨digits, place⟩ := found
  dsimp only at hplace hlead ⊢
  have hsize : (if x.negative = true then -(digits : Int) else digits).natAbs = digits := by
    split <;> simp
  rw [hsize, decide_eq_true_eq]
  omega

/-- `Decimal(str(value))`: numbers and numeric texts convert, anything else does not. -/
def ofJson? : Json → Option Decimal
  | .num (.int n) => some (finite ⟨n, 0⟩)
  | .num (.float x) => some (finite (ofDouble x))
  | .str s => ofText? s
  | _ => none

/-- `a < 0`; a comparison with NaN raises. -/
def isNegative : Decimal → Except OrchestrationError Bool
  | finite n => .ok (decide (n.mantissa < 0))
  | infinity negative => .ok negative
  | nan => .error .invalidOperation

/-- The stored amount of a non-negative decimal: ten-thousandths, halves rounded up. -/
def toGrid (n : DecimalNumber) : Nat :=
  let unit := 10 ^ (-4 - n.exponent).toNat
  (2 * n.mantissa.toNat * 10 ^ (n.exponent + 4).toNat + unit) / (2 * unit)

/-- An amount on the money grid as a decimal. -/
def ofGrid (amount : Nat) : Decimal := finite ⟨amount, -4⟩

/-- `min(actual, reserved)` for a non-negative actual, on the grid. -/
def clampToGrid (reserved : Nat) : Decimal → Nat
  | finite n => min (toGrid n) reserved
  | _ => reserved

theorem clampToGrid_le (reserved : Nat) (actual : Decimal) :
    clampToGrid reserved actual ≤ reserved := by
  cases actual with
  | finite n => exact Nat.min_le_right _ _
  | infinity _ => exact Nat.le_refl _
  | nan => exact Nat.le_refl _

/-- Whether the amount charged for a non-negative actual can be sent to its column. -/
def isSendable (reserved : Nat) : Decimal → Bool
  | finite n => n.exceeds reserved || n.isSendable
  | _ => true

/-- An actual cost the ledger takes: no NaN, nothing negative, nothing that cannot be sent. -/
def settles (reserved : Nat) (actual : Decimal) : Bool :=
  match actual.isNegative with
  | .ok negative => !negative && actual.isSendable reserved
  | .error _ => false

/-- Of the doubles only the negative ones are not taken. -/
theorem settles_ofDouble (reserved : Nat) (x : Double) :
    (finite (ofDouble x)).settles reserved = (!x.negative || x.significand == 0) := by
  have hsettles : (finite (ofDouble x)).settles reserved =
      (!decide ((ofDouble x).mantissa < 0) &&
        ((ofDouble x).exceeds reserved || (ofDouble x).isSendable)) := rfl
  rw [hsettles, ofDouble_isSendable, Bool.or_true, Bool.and_true, Bool.eq_iff_iff]
  simp only [Bool.not_eq_true', decide_eq_false_iff_not, ofDouble_neg, Bool.or_eq_true,
    beq_iff_eq, not_and_or, Bool.not_eq_true, not_not]

example : ofText? "\u00A0-1.\u0665E-2 " = some (finite ⟨-15, -3⟩) := by decide +kernel

example : ofText? "-NaN12" = some nan := by decide +kernel

end Decimal

end ContentOrchestrator
