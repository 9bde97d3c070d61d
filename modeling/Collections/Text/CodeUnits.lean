set_option autoImplicit false

namespace Collections.Text

def characterUnits (character : Char) : List Nat :=
  let code := character.toNat
  if code < 0x10000 then [code]
  else [0xD800 + (code - 0x10000) / 0x400, 0xDC00 + (code - 0x10000) % 0x400]

def codeUnits (text : String) : List Nat := text.toList.flatMap characterUnits

def unitCount (text : String) : Nat := (codeUnits text).length

def compareUnits : List Nat → List Nat → Ordering
  | [], [] => .eq
  | [], _ :: _ => .lt
  | _ :: _, [] => .gt
  | left :: lefts, right :: rights =>
      if left < right then .lt
      else if right < left then .gt
      else compareUnits lefts rights

-- The order of texts wherever one shows: in sets, in sorted keys, in reports.
def order (left right : String) : Ordering :=
  compareUnits (codeUnits left) (codeUnits right)

def sortByKey {α : Type} (entries : List (String × α)) : List (String × α) :=
  entries.mergeSort fun left right => order left.1 right.1 != .gt

end Collections.Text
