import ApiCompiler.Text.Accents.Table
import ApiCompiler.Text.Digits
import ApiCompiler.Text.Segments
import Std.Data.HashMap

/-!
Base letters: what is left of a text when every character is taken apart into its compatibility
decomposition and the combining marks are dropped. Marks are all dropped, so their order among each
other does not matter and each character can be treated by itself.
-/

namespace ApiCompiler.Text

private def hexNumber? (text : List Char) : Option Nat := do
  return ofDigits 16 (← text.mapM (asciiDigit? 16))

private def hexRange? (text : List Char) : Option (List Nat) :=
  match cut '-' text with
  | (first, some last) => do
      let first ← hexNumber? first
      let last ← hexNumber? last
      return (List.range (last + 1 - first)).map (first + ·)
  | (only, none) => do return [← hexNumber? only]

private def tableRow? (entry : List Char) : Option (List (Nat × List Char)) :=
  match cut '>' entry with
  | (range, some target) => do
      let start ← hexNumber? target
      let sources ← hexRange? range
      return sources.zipIdx.map fun (source, i) => (source, [Char.ofNat (start + i)])
  | (_, none) =>
      match cut ':' entry with
      | (range, some []) => do return (← hexRange? range).map fun n => (n, [])
      | (range, some targets) => do
          let letters ← (splitAt '.' targets).mapM hexNumber?
          return (← hexRange? range).map fun n => (n, letters.map Char.ofNat)
      | (_, none) => none

private def baseLetterTable : Std.HashMap Nat (List Char) :=
  baseLetterLines.foldl
    (fun table line =>
      (splitAt ' ' line.toList).foldl
        (fun table entry => table.insertMany ((tableRow? entry).getD []))
        table)
    ∅

/-- A Hangul syllable is its leading, middle and, if there is one, trailing letter. -/
private def syllableLetters (index : Nat) : List Char :=
  let lead := Char.ofNat (0x1100 + index / 588)
  let middle := Char.ofNat (0x1161 + index % 588 / 28)
  if index % 28 = 0 then [lead, middle] else [lead, middle, Char.ofNat (0x11A7 + index % 28)]

/-- The base letters of one character; an ASCII character is its own. -/
def baseLetters (c : Char) : List Char :=
  if c.toNat < 0x80 then [c]
  else if 0xAC00 ≤ c.toNat && c.toNat ≤ 0xD7A3 then syllableLetters (c.toNat - 0xAC00)
  else (baseLetterTable[c.toNat]?).getD [c]

def removeAccents (text : List Char) : List Char :=
  text.flatMap baseLetters

end ApiCompiler.Text
