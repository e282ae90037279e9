import ApiCompiler.Text.Digits

/-!
Decoding UTF-8. The first byte that cannot stand where it stands decides the fault.
-/

namespace ApiCompiler.Text

inductive Utf8Reason
  | start
  | continuation
  | ending
  deriving DecidableEq

/-- The bytes from `first` to `last` are not UTF-8. -/
structure Utf8Fault where
  reason : Utf8Reason
  first : Nat
  last : Nat
  byte : UInt8
  deriving DecidableEq

namespace Utf8Fault

private def reasonText : Utf8Reason → String
  | .start => "invalid start byte"
  | .continuation => "invalid continuation byte"
  | .ending => "unexpected end of data"

private def hexByte (byte : UInt8) : String :=
  let digits := Nat.toDigits 16 byte.toNat
  String.ofList (List.replicate (2 - digits.length) '0' ++ digits)

def message (fault : Utf8Fault) : String :=
  let place :=
    if fault.first = fault.last then
      "byte 0x" ++ hexByte fault.byte ++ " in position " ++ toString fault.first
    else "bytes in position " ++ toString fault.first ++ "-" ++ toString fault.last
  "'utf-8' codec can't decode " ++ place ++ ": " ++ reasonText fault.reason

end Utf8Fault

/-- The number of bytes after a start byte, and the range of the first of them. -/
private def continuation? (start : Nat) : Option (Nat × Nat × Nat) :=
  if 0xC2 ≤ start && start ≤ 0xDF then some (1, 0x80, 0xBF)
  else if start = 0xE0 then some (2, 0xA0, 0xBF)
  else if start = 0xED then some (2, 0x80, 0x9F)
  else if 0xE1 ≤ start && start ≤ 0xEF then some (2, 0x80, 0xBF)
  else if start = 0xF0 then some (3, 0x90, 0xBF)
  else if 0xF1 ≤ start && start ≤ 0xF3 then some (3, 0x80, 0xBF)
  else if start = 0xF4 then some (3, 0x80, 0x8F)
  else none

/-- The number of bytes, of those that should follow, that may follow. -/
private def goodPrefix (low high : Nat) : (wanted : Nat) → List UInt8 → Nat
  | 0, _ => 0
  | _, [] => 0
  | wanted + 1, b :: rest =>
      if low ≤ b.toNat && b.toNat ≤ high then goodPrefix 0x80 0xBF wanted rest + 1 else 0

private def firstFault (position : Nat) : List UInt8 → (skip : Nat) → Option Utf8Fault
  | [], _ => none
  | _ :: rest, skip + 1 => firstFault (position + 1) rest skip
  | b :: rest, 0 =>
      if b.toNat < 0x80 then firstFault (position + 1) rest 0
      else
        match continuation? b.toNat with
        | none => some ⟨.start, position, position, b⟩
        | some (wanted, low, high) =>
            let good := goodPrefix low high wanted rest
            if good = wanted then firstFault (position + 1) rest wanted
            else
              let reason := if good = rest.length then .ending else .continuation
              some ⟨reason, position, position + good, b⟩

def decodeUtf8 (bytes : ByteArray) : Except Utf8Fault String :=
  match String.fromUTF8? bytes with
  | some text => .ok text
  | none => .error ((firstFault 0 bytes.toList 0).getD ⟨.ending, 0, 0, 0⟩)

def unifyLineEndings : List Char → List Char
  | [] => []
  | '\r' :: '\n' :: rest => '\n' :: unifyLineEndings rest
  | '\r' :: rest => '\n' :: unifyLineEndings rest
  | c :: rest => c :: unifyLineEndings rest

end ApiCompiler.Text
