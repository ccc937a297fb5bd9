import AiStudio.Data.Text

/-!
# Numbers in text

What Python reads as a whole number: the decimal digits of every script, a sign, and single
underscores between digits. Characters are classified as in version 14 of the Unicode database.
-/

set_option autoImplicit false

namespace AiStudio.Data

/-- The zeros of the decimal digits of each script; nine further digits follow each. -/
def decimalZeros : List Nat :=
  [48, 1632, 1776, 1984, 2406, 2534, 2662, 2790, 2918, 3046, 3174, 3302, 3430, 3558, 3664, 3792,
    3872, 4160, 4240, 6112, 6160, 6470, 6608, 6784, 6800, 6992, 7088, 7232, 7248, 42528, 43216,
    43264, 43472, 43504, 43600, 44016, 65296, 66720, 68912, 69734, 69872, 69942, 70096, 70384,
    70736, 70864, 71248, 71360, 71472, 71904, 72016, 72784, 73040, 73120, 92768, 92864, 93008,
    120782, 120792, 120802, 120812, 120822, 123200, 123632, 125264, 130032]

/-- The digits that are not decimal: superscripts, subscripts, and digits in circles. -/
def otherDigits : List (Nat × Nat) :=
  [(178, 179), (185, 185), (4969, 4977), (6618, 6618), (8304, 8304), (8308, 8313), (8320, 8329),
    (9312, 9320), (9332, 9340), (9352, 9360), (9450, 9450), (9461, 9469), (9471, 9471),
    (10102, 10110), (10112, 10120), (10122, 10130), (68160, 68163), (69216, 69224),
    (69714, 69722), (127232, 127242)]

/-- The value of a decimal digit. -/
def decimal? (c : Char) : Option Nat :=
  (decimalZeros.find? fun first => first ≤ c.toNat && c.toNat < first + 10).map (c.toNat - ·)

/-- `s.isdigit()`. -/
def isDigits (s : String) : Bool :=
  !s.toList.isEmpty && s.toList.all fun c =>
    (decimal? c).isSome || otherDigits.any fun r => r.1 ≤ c.toNat && c.toNat ≤ r.2

/-- Digits, single underscores between them. -/
def readDigits : List Char → Nat → Option Nat
  | [], n => some n
  | '_' :: c :: cs, n => do
      let d ← decimal? c
      readDigits cs (n * 10 + d)
  | c :: cs, n => do
      let d ← decimal? c
      readDigits cs (n * 10 + d)

/-- Digits, at least one. -/
def readNat : List Char → Option Nat
  | [] => none
  | '_' :: _ => none
  | cs => readDigits cs 0

/-- `int(s)`. -/
def readInt (s : String) : Option Int :=
  match (strip s).toList with
  | '-' :: cs => (readNat cs).map fun n => -(n : Int)
  | '+' :: cs => (readNat cs).map fun n => (n : Int)
  | cs => (readNat cs).map fun n => (n : Int)

end AiStudio.Data
