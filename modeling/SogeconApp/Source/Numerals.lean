import SogeconApp.Source.MediaPaths

/-!
# Numerals

`int` of a text. A decimal digit of any script stands for its value, a single underscore may stand
between two digits, and blanks may stand around the numeral and its sign. In a text of ASCII
characters these are the blanks of C, in any other text those of `str.isspace` beyond ASCII too.
-/

namespace SogeconApp.Source.Numerals

open Source.MediaPaths

/-- The zeros of the decimal digits, each followed by the other nine. -/
def zeros : List Nat :=
  [0x30, 0x660, 0x6f0, 0x7c0, 0x966, 0x9e6, 0xa66, 0xae6, 0xb66, 0xbe6, 0xc66, 0xce6, 0xd66, 0xde6, 0xe50,
    0xed0, 0xf20, 0x1040, 0x1090, 0x17e0, 0x1810, 0x1946, 0x19d0, 0x1a80, 0x1a90, 0x1b50, 0x1bb0, 0x1c40,
    0x1c50, 0xa620, 0xa8d0, 0xa900, 0xa9d0, 0xa9f0, 0xaa50, 0xabf0, 0xff10, 0x104a0, 0x10d30, 0x11066,
    0x110f0, 0x11136, 0x111d0, 0x112f0, 0x11450, 0x114d0, 0x11650, 0x116c0, 0x11730, 0x118e0, 0x11950,
    0x11c50, 0x11d50, 0x11da0, 0x11f50, 0x16a60, 0x16ac0, 0x16b50, 0x1d7ce, 0x1d7d8, 0x1d7e2, 0x1d7ec,
    0x1d7f6, 0x1e140, 0x1e2f0, 0x1e4f0, 0x1e950, 0x1fbf0]

def decimal (char : Char) : Option Nat :=
  (zeros.find? fun start => start ≤ char.toNat ∧ char.toNat < start + 10).map (char.toNat - ·)

/-- A blank or a digit in ASCII; a character that is neither is no part of a numeral. -/
def asciiOf (char : Char) : Char :=
  if char.toNat < 127 then char
  else if isSpace char then ' '
  else
    match decimal char with
    | some value => Char.ofNat (0x30 + value)
    | none => '?'

def toAscii (text : Text) : Text :=
  if text.all fun char => char.toNat < 128 then text else text.map asciiOf

/-- `Py_ISSPACE`. -/
def isBlank (char : Char) : Bool := (0x09 ≤ char.toNat ∧ char.toNat ≤ 0x0d) ∨ char = ' '

def digit (char : Char) : Option Nat :=
  if 0x30 ≤ char.toNat ∧ char.toNat ≤ 0x39 then some (char.toNat - 0x30) else none

def digits : Text → Option (List Nat)
  | [] => none
  | [char] => (digit char).map fun value => [value]
  | char :: '_' :: rest => do return (← digit char) :: (← digits rest)
  | char :: rest => do return (← digit char) :: (← digits rest)

/-- `sys.int_info.default_max_str_digits`. -/
def maxStrDigits : Nat := 4300

def natural (text : Text) : Option Nat := do
  let values ← digits text
  if maxStrDigits < values.length then none
  else some (values.foldl (fun number value => 10 * number + value) 0)

/-- `int(text)`; `none` is its ValueError. -/
def int (text : Text) : Option Int :=
  match ((toAscii text).dropWhile isBlank).rdropWhile isBlank with
  | '+' :: rest => (natural rest).map Int.ofNat
  | '-' :: rest => (natural rest).map fun number => -Int.ofNat number
  | rest => (natural rest).map Int.ofNat

example : ["7", " +007 ", "７", "0_7", "_7", "7_", "+ 7", ""].map (fun text => int text.toList) =
    [some 7, some 7, some 7, some 7, none, none, none, none] := by decide

end SogeconApp.Source.Numerals
