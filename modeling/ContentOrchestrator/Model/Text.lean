import Mathlib.Data.List.DropRight

/-! # Characters and numeric texts

What the interpreter takes for a blank and for a decimal digit, over all of Unicode, and
the integers it reads from a text. -/

namespace ContentOrchestrator

/-- `str.isspace` -/
def isSpace (c : Char) : Bool :=
  let n := c.toNat
  (9 ≤ n && n ≤ 13) || (28 ≤ n && n ≤ 32) || n == 0x85 || n == 0xA0 || n == 0x1680 ||
    (0x2000 ≤ n && n ≤ 0x200A) || n == 0x2028 || n == 0x2029 || n == 0x202F || n == 0x205F ||
      n == 0x3000

/-- `str.strip` -/
def strip (cs : List Char) : List Char := (cs.dropWhile isSpace).rdropWhile isSpace

/-- The zeros of Unicode 15.0; the other digits of a script follow its zero. -/
def digitZeros : List Nat :=
  [0x0030, 0x0660, 0x06F0, 0x07C0, 0x0966, 0x09E6, 0x0A66, 0x0AE6, 0x0B66, 0x0BE6, 0x0C66, 0x0CE6,
    0x0D66, 0x0DE6, 0x0E50, 0x0ED0, 0x0F20, 0x1040, 0x1090, 0x17E0, 0x1810, 0x1946, 0x19D0, 0x1A80,
    0x1A90, 0x1B50, 0x1BB0, 0x1C40, 0x1C50, 0xA620, 0xA8D0, 0xA900, 0xA9D0, 0xA9F0, 0xAA50, 0xABF0,
    0xFF10, 0x104A0, 0x10D30, 0x11066, 0x110F0, 0x11136, 0x111D0, 0x112F0, 0x11450, 0x114D0,
    0x11650, 0x116C0, 0x11730, 0x118E0, 0x11950, 0x11C50, 0x11D50, 0x11DA0, 0x11F50, 0x16A60,
    0x16AC0, 0x16B50, 0x1D7CE, 0x1D7D8, 0x1D7E2, 0x1D7EC, 0x1D7F6, 0x1E140, 0x1E2F0, 0x1E4F0,
    0x1E950, 0x1FBF0]

/-- `unicodedata.decimal` -/
def digit? (c : Char) : Option Nat :=
  (digitZeros.find? fun first => first ≤ c.toNat && c.toNat < first + 10).map (c.toNat - ·)

def natOfDigits (cs : List Char) : Option Nat :=
  cs.foldl (fun acc c => do return (← acc) * 10 + (← digit? c)) (some 0)

/-- An optional sign, and the rest. -/
def splitSign : List Char → Bool × List Char
  | '-' :: cs => (true, cs)
  | '+' :: cs => (false, cs)
  | cs => (false, cs)

/-- The digits of `int(text)`, single underscores between them. -/
def moreDigits (n : Nat) : List Char → Option Nat
  | [] => some n
  | '_' :: c :: rest => (digit? c).bind fun d => moreDigits (10 * n + d) rest
  | c :: rest => (digit? c).bind fun d => moreDigits (10 * n + d) rest

/-- `int(text)` -/
def intOfText? (text : List Char) : Option Int :=
  let (negative, digits) := splitSign (strip text)
  match digits with
  | [] => none
  | c :: rest => do
    let n ← moreDigits (← digit? c) rest
    return if negative then -(n : Int) else n

example : intOfText? "\u00A0-1_٢ ".toList = some (-12) := by decide +kernel

end ContentOrchestrator
