import Collections.Number.Decimal
import Collections.Text.CodeUnits

set_option autoImplicit false

namespace Collections.Diagnostics

inductive JsonValue where
  | null
  | bool (value : Bool)
  | number (value : Number)
  | text (value : String)
  | array (items : List JsonValue)
  | object (members : List (String × JsonValue))

namespace JsonValue

def hexDigit (value : Nat) : Char := (Nat.toDigits 16 value).headD '0'

def escape (character : Char) : List Char :=
  match character with
  | '"' => ['\\', '"']
  | '\\' => ['\\', '\\']
  | '\x08' => ['\\', 'b']
  | '\x0c' => ['\\', 'f']
  | '\n' => ['\\', 'n']
  | '\r' => ['\\', 'r']
  | '\t' => ['\\', 't']
  | character =>
      let code := character.toNat
      if code < 0x20 then ['\\', 'u', '0', '0', hexDigit (code / 16), hexDigit (code % 16)]
      else [character]

def quoted (text : String) : List Char := '"' :: text.toList.flatMap escape ++ ['"']

def numeral (number : Number) : List Char :=
  match number with
  | .finite .. => number.toText.toList
  | _ => "null".toList

def separated : List (List Char) → List Char
  | [] => []
  | [part] => part
  | part :: rest => part ++ ',' :: separated rest

mutual

def characters : JsonValue → List Char
  | .null => "null".toList
  | .bool value => (if value then "true" else "false").toList
  | .number value => numeral value
  | .text value => quoted value
  | .array items => '[' :: separated (itemTexts items) ++ [']']
  | .object members => '\x7b' :: separated (memberTexts members) ++ ['\x7d']

def itemTexts : List JsonValue → List (List Char)
  | [] => []
  | item :: items => characters item :: itemTexts items

def memberTexts : List (String × JsonValue) → List (List Char)
  | [] => []
  | (key, value) :: members =>
      (quoted key ++ ':' :: characters value) :: memberTexts members

end

def toText (json : JsonValue) : String := String.ofList json.characters

def ofMembers (members : List (String × JsonValue)) : JsonValue := .object (Text.sortByKey members)

end JsonValue

end Collections.Diagnostics
