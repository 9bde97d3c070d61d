import Collections.Number.Decimal
import Collections.Text.Blank

set_option autoImplicit false

namespace Collections.Numeral

def base? (mark : Char) : Option Nat :=
  if mark = 'x' ∨ mark = 'X' then some 16
  else if mark = 'o' ∨ mark = 'O' then some 8
  else if mark = 'b' ∨ mark = 'B' then some 2
  else none

def digitValue? (digit : Char) : Option Nat :=
  let code := digit.toNat
  if '0' ≤ digit ∧ digit ≤ '9' then some (code - '0'.toNat)
  else if 'a' ≤ digit ∧ digit ≤ 'f' then some (code - 'a'.toNat + 10)
  else if 'A' ≤ digit ∧ digit ≤ 'F' then some (code - 'A'.toNat + 10)
  else none

def digitBelow? (base : Nat) (digit : Char) : Option Nat := (digitValue? digit).filter (· < base)

def readDigits? (base : Nat) (digits : List Char) : Option Nat :=
  if digits.isEmpty then none
  else
    digits.foldlM
      (fun value digit => (digitBelow? base digit).map fun next => value * base + next) 0

def readBased? : List Char → Option Nat
  | '0' :: mark :: digits => (base? mark).bind fun base => readDigits? base digits
  | _ => none

def integer? (text : String) : Option Int :=
  match Text.trimBlank text.toList with
  | [] => some 0
  | '-' :: digits => (readDigits? 10 digits).map fun value => -(value : Int)
  | '+' :: digits => (readDigits? 10 digits).map Int.ofNat
  | characters => (readBased? characters <|> readDigits? 10 characters).map Int.ofNat

def number (text : String) : Number :=
  match Text.trimBlank text.toList with
  | [] => .zero false
  | '-' :: digits => (Number.ofUnsignedText? true digits).getD .nan
  | '+' :: digits => (Number.ofUnsignedText? false digits).getD .nan
  | characters =>
      match readBased? characters with
      | some value => .ofNat value
      | none => (Number.ofUnsignedText? false characters).getD .nan

end Collections.Numeral
