import ApiCompiler.Text.Blank

/-!
Decimal digits of every script, and integers written with them.
-/

namespace ApiCompiler.Text

/-- The digit zero of each decimal script; the other nine digits follow it. -/
def decimalZeros : List Nat :=
  [0x30, 0x660, 0x6f0, 0x7c0, 0x966, 0x9e6, 0xa66, 0xae6, 0xb66, 0xbe6, 0xc66, 0xce6, 0xd66,
    0xde6, 0xe50, 0xed0, 0xf20, 0x1040, 0x1090, 0x17e0, 0x1810, 0x1946, 0x19d0, 0x1a80, 0x1a90,
    0x1b50, 0x1bb0, 0x1c40, 0x1c50, 0xa620, 0xa8d0, 0xa900, 0xa9d0, 0xa9f0, 0xaa50, 0xabf0,
    0xff10, 0x104a0, 0x10d30, 0x11066, 0x110f0, 0x11136, 0x111d0, 0x112f0, 0x11450, 0x114d0,
    0x11650, 0x116c0, 0x11730, 0x118e0, 0x11950, 0x11c50, 0x11d50, 0x11da0, 0x16a60, 0x16ac0,
    0x16b50, 0x1d7ce, 0x1d7d8, 0x1d7e2, 0x1d7ec, 0x1d7f6, 0x1e140, 0x1e2f0, 0x1e950, 0x1fbf0]

def digit? (c : Char) : Option Nat :=
  (decimalZeros.find? fun first => first ≤ c.toNat && c.toNat < first + 10).map (c.toNat - ·)

/-- The value of a digit in a base up to sixteen, in ASCII. -/
def asciiDigit? (base : Nat) (c : Char) : Option Nat :=
  let value? :=
    if c.isDigit then some (c.toNat - '0'.toNat)
    else if 'a' ≤ c && c ≤ 'f' then some (c.toNat - 'a'.toNat + 10)
    else if 'A' ≤ c && c ≤ 'F' then some (c.toNat - 'A'.toNat + 10)
    else none
  value?.filter (· < base)

/-- The number that a list of digits spells in a base. -/
def ofDigits (base : Nat) (digits : List Nat) : Nat :=
  digits.foldl (fun value digit => value * base + digit) 0

@[simp] theorem ofDigits_nil (base : Nat) : ofDigits base [] = 0 := rfl

@[simp] theorem ofDigits_concat (base : Nat) (digits : List Nat) (digit : Nat) :
    ofDigits base (digits ++ [digit]) = ofDigits base digits * base + digit := by
  simp [ofDigits, List.foldl_append]

/-- More digits than this are not converted between text and number. -/
def digitLimit : Nat := 4300

/-- The values of digits of any script, with at most one underscore between two of them. -/
def digitRun? : List Char → Option (List Nat)
  | [] => none
  | [c] => (digit? c).map ([·])
  | c :: '_' :: rest => do
      let first ← digit? c
      return first :: (← digitRun? rest)
  | c :: rest => do
      let first ← digit? c
      return first :: (← digitRun? rest)

def isIntegerPadding (c : Char) : Bool :=
  isBlank c && !(0x1C ≤ c.toNat && c.toNat ≤ 0x1F)

/--
An integer as a person may write it: blanks around it, one sign, digits of any script, and single
underscores between digits.
-/
def readInteger? (text : List Char) : Option Int :=
  let core := ((text.dropWhile isIntegerPadding).reverse.dropWhile isIntegerPadding).reverse
  let unsigned (digits : List Char) : Option Nat :=
    (digitRun? digits).bind fun run =>
      if run.length ≤ digitLimit then some (ofDigits 10 run) else none
  match core with
  | '-' :: digits => (unsigned digits).map fun n => -(n : Int)
  | '+' :: digits => (unsigned digits).map fun n => (n : Int)
  | digits => (unsigned digits).map fun n => (n : Int)

def decimal (n : Nat) : List Char :=
  Nat.toDigits 10 n

end ApiCompiler.Text
