import Collections.Diagnostics.JsonValue
import Collections.Number.Numeral
import Collections.Proofs.Number.Numerals

set_option autoImplicit false

namespace Collections.Diagnostics

namespace JsonText

def isBlank (character : Char) : Bool := character ∈ [' ', '\t', '\n', '\r']

def skipBlank (text : List Char) : List Char := text.dropWhile isBlank

def shortEscape? : Char → Option Nat
  | '"' => some 0x22
  | '\\' => some 0x5C
  | '/' => some 0x2F
  | 'b' => some 0x08
  | 'f' => some 0x0C
  | 'n' => some 0x0A
  | 'r' => some 0x0D
  | 't' => some 0x09
  | _ => none

-- The units of a string up to its closing quote, and what follows that.
def readUnits? : List Char → Option (List Nat × List Char)
  | [] => none
  | '"' :: rest => some ([], rest)
  | '\\' :: 'u' :: first :: second :: third :: fourth :: rest => do
      let unit ← Numeral.readDigits? 16 [first, second, third, fourth]
      let (units, rest) ← readUnits? rest
      return (unit :: units, rest)
  | '\\' :: mark :: rest => do
      let unit ← shortEscape? mark
      let (units, rest) ← readUnits? rest
      return (unit :: units, rest)
  | character :: rest =>
      if character.toNat < 0x20 then none
      else do
        let (units, rest) ← readUnits? rest
        return (Text.characterUnits character ++ units, rest)

-- The characters that units stand for; half of a pair stands for none.
def charactersOf? : List Nat → Option (List Char)
  | [] => some []
  | leading :: trailing :: rest =>
      if 0xD800 ≤ leading ∧ leading < 0xDC00 then
        if 0xDC00 ≤ trailing ∧ trailing < 0xE000 then
          let code := 0x10000 + (leading - 0xD800) * 0x400 + (trailing - 0xDC00)
          (charactersOf? rest).map (Char.ofNat code :: ·)
        else none
      else if 0xDC00 ≤ leading ∧ leading < 0xE000 then none
      else (charactersOf? (trailing :: rest)).map (Char.ofNat leading :: ·)
  | [unit] => if 0xD800 ≤ unit ∧ unit < 0xE000 then none else some [Char.ofNat unit]

def readString? (text : List Char) : Option (String × List Char) := do
  let (units, rest) ← readUnits? text
  let characters ← charactersOf? units
  return (String.ofList characters, rest)

mutual

/-- A value at the beginning of a text, and what follows it. No value is deeper than the text is long. -/
def readValue? : Nat → List Char → Option (JsonValue × List Char)
  | 0, _ => none
  | depth + 1, text =>
      match skipBlank text with
      | 'n' :: 'u' :: 'l' :: 'l' :: rest => some (.null, rest)
      | 't' :: 'r' :: 'u' :: 'e' :: rest => some (.bool true, rest)
      | 'f' :: 'a' :: 'l' :: 's' :: 'e' :: rest => some (.bool false, rest)
      | '"' :: rest => (readString? rest).map fun (content, rest) => (.text content, rest)
      | '[' :: rest =>
          match skipBlank rest with
          | ']' :: rest => some (.array [], rest)
          | rest => (readItems? depth rest).map fun (items, rest) => (.array items, rest)
      | '\x7b' :: rest =>
          match skipBlank rest with
          | '\x7d' :: rest => some (.object [], rest)
          | rest => (readMembers? depth rest).map fun (members, rest) => (.object members, rest)
      | text => do
          let number ← Number.readStrict? (text.takeWhile Decimal.isNumeralCharacter)
          return (.number number, text.dropWhile Decimal.isNumeralCharacter)

def readItems? : Nat → List Char → Option (List JsonValue × List Char)
  | 0, _ => none
  | depth + 1, text => do
      let (item, rest) ← readValue? depth text
      match skipBlank rest with
      | ',' :: rest =>
          let (items, rest) ← readItems? depth rest
          return (item :: items, rest)
      | ']' :: rest => return ([item], rest)
      | _ => none

def readMembers? : Nat → List Char → Option (List (String × JsonValue) × List Char)
  | 0, _ => none
  | depth + 1, text =>
      match skipBlank text with
      | '"' :: rest => do
          let (key, rest) ← readString? rest
          match skipBlank rest with
          | ':' :: rest =>
              let (value, rest) ← readValue? depth rest
              match skipBlank rest with
              | ',' :: rest =>
                  let (members, rest) ← readMembers? depth rest
                  return ((key, value) :: members, rest)
              | '\x7d' :: rest => return ([(key, value)], rest)
              | _ => none
          | _ => none
      | _ => none

end

def read? (text : String) : Option JsonValue :=
  match readValue? (2 * text.length + 1) text.toList with
  | some (json, rest) => if (skipBlank rest).isEmpty then some json else none
  | none => none

end JsonText

namespace JsonValue

mutual

def told : JsonValue → JsonValue
  | .number held => if held.units?.isSome then .number held.unsignedZero else .null
  | .array items => .array (toldItems items)
  | .object members => .object (toldMembers members)
  | json => json

def toldItems : List JsonValue → List JsonValue
  | [] => []
  | item :: items => told item :: toldItems items

def toldMembers : List (String × JsonValue) → List (String × JsonValue)
  | [] => []
  | (key, value) :: members => (key, told value) :: toldMembers members

end

end JsonValue

namespace JsonText

open JsonValue

section Strings

variable {rest : List Char}

theorem readUnits?_plain {character : Char} (plain : character ≠ '"' ∧ character ≠ '\\')
    (high : 0x20 ≤ character.toNat) :
    readUnits? (character :: rest) =
      (readUnits? rest).map fun (units, rest) => (Text.characterUnits character ++ units, rest) := by
  rw [readUnits?.eq_def]
  split
  next same => cases same
  next same => cases same; exact absurd rfl plain.1
  next same => cases same; exact absurd rfl plain.2
  next same => cases same; exact absurd rfl plain.2
  next same =>
    cases same
    rw [if_neg (Nat.not_lt.2 high)]
    cases readUnits? rest <;> rfl

theorem readDigits?_control : ∀ code, code < 0x20 →
    Numeral.readDigits? 16 ['0', '0', hexDigit (code / 16), hexDigit (code % 16)] = some code := by
  decide

theorem readUnits?_escape (character : Char) (rest : List Char) :
    readUnits? (escape character ++ rest) =
      (readUnits? rest).map fun (units, rest) => (Text.characterUnits character ++ units, rest) := by
  unfold escape
  split
  all_goals try (simp [readUnits?, shortEscape?, Text.characterUnits]; cases readUnits? rest <;> rfl)
  next quote backslash _ _ _ _ _ =>
    dsimp only
    split
    next low =>
      have unit : Text.characterUnits character = [character.toNat] := by
        rw [Text.characterUnits, if_pos (by omega)]
      simp only [List.cons_append, List.nil_append, readUnits?, readDigits?_control _ low, unit]
      cases readUnits? rest <;> rfl
    next high => exact readUnits?_plain ⟨quote, backslash⟩ (Nat.not_lt.1 high)

theorem readUnits?_quoted (characters rest : List Char) :
    readUnits? (characters.flatMap escape ++ '"' :: rest) =
      some (characters.flatMap Text.characterUnits, rest) := by
  induction characters with
  | nil => rw [List.flatMap_nil, List.nil_append, readUnits?, List.flatMap_nil]
  | cons character characters ih =>
    rw [List.flatMap_cons, List.append_assoc, readUnits?_escape, ih, Option.map_some, List.flatMap_cons]

theorem charactersOf?_plain {unit : Nat} (plain : ¬ (0xD800 ≤ unit ∧ unit < 0xE000)) (units : List Nat) :
    charactersOf? (unit :: units) = (charactersOf? units).map (Char.ofNat unit :: ·) := by
  cases units with
  | nil => simp [charactersOf?, plain]
  | cons next rest => rw [charactersOf?, if_neg (by omega), if_neg (by omega)]

theorem charactersOf?_units (characters : List Char) :
    charactersOf? (characters.flatMap Text.characterUnits) = some characters := by
  induction characters with
  | nil => rfl
  | cons character characters ih =>
    -- No character is half of a pair.
    have valid : character.toNat < 0xD800 ∨ 0xDFFF < character.toNat ∧ character.toNat < 0x110000 :=
      character.valid
    rw [List.flatMap_cons]
    by_cases basic : character.toNat < 0x10000
    next =>
      rw [Text.characterUnits, if_pos basic, List.singleton_append, charactersOf?_plain (by omega), ih,
        Option.map_some, Char.ofNat_toNat]
    next =>
      rw [Text.characterUnits, if_neg basic, List.cons_append, List.singleton_append, charactersOf?,
        if_pos (by omega), if_pos (by omega), ih]
      have code : 0x10000 + (0xD800 + (character.toNat - 0x10000) / 0x400 - 0xD800) * 0x400 +
          (0xDC00 + (character.toNat - 0x10000) % 0x400 - 0xDC00) = character.toNat := by omega
      rw [code, Option.map_some, Char.ofNat_toNat]

theorem readString?_quoted (text : String) (rest : List Char) :
    readString? (text.toList.flatMap escape ++ '"' :: rest) = some (text, rest) := by
  simp [readString?, readUnits?_quoted, charactersOf?_units]

end Strings

section Values

open Decimal

variable {text rest : List Char}

theorem skipBlank_cons {first : Char} (solid : isBlank first = false) (rest : List Char) :
    skipBlank (first :: rest) = first :: rest :=
  List.dropWhile_cons_of_neg (by simp [solid])

theorem isBlank_of_isNumeralCharacter {character : Char} (numeral : isNumeralCharacter character = true) :
    isBlank character = false := by
  rw [← Bool.not_eq_true]
  intro blank
  have among : character ∈ [' ', '\t', '\n', '\r'] := of_decide_eq_true blank
  simp only [List.mem_cons, List.not_mem_nil, or_false] at among
  rcases among with rfl | rfl | rfl | rfl <;> cases numeral

theorem readValue?_number {number : Number} (reads : Number.readStrict? text = some number)
    (numerals : ∀ character ∈ text, isNumeralCharacter character = true)
    (ends : ∀ next ∈ rest.head?, isNumeralCharacter next = false) (depth : Nat) :
    readValue? (depth + 1) (text ++ rest) = some (.number number, rest) := by
  cases text with
  | nil => cases reads
  | cons first others =>
    have numeral := numerals first List.mem_cons_self
    -- The characters of numerals begin no other value, so that the last case of the reader applies.
    have taken : ((first :: others) ++ rest).takeWhile isNumeralCharacter = first :: others ∧
        ((first :: others) ++ rest).dropWhile isNumeralCharacter = rest := by
      rw [List.takeWhile_append_of_pos numerals, List.dropWhile_append_of_pos numerals]
      cases rest with
      | nil => simp
      | cons next rest => simp [ends next rfl]
    rw [List.cons_append] at taken ⊢
    unfold readValue?
    rw [skipBlank_cons (isBlank_of_isNumeralCharacter numeral)]
    split
    next same => obtain ⟨rfl, _⟩ := List.cons.inj same; cases numeral
    next same => obtain ⟨rfl, _⟩ := List.cons.inj same; cases numeral
    next same => obtain ⟨rfl, _⟩ := List.cons.inj same; cases numeral
    next same => obtain ⟨rfl, _⟩ := List.cons.inj same; cases numeral
    next same => obtain ⟨rfl, _⟩ := List.cons.inj same; cases numeral
    next same => obtain ⟨rfl, _⟩ := List.cons.inj same; cases numeral
    next => simp [taken.1, taken.2, reads]

-- How the text of a document begins.
theorem characters_begin (json : JsonValue) :
    ∃ first others, json.characters = first :: others ∧ isBlank first = false ∧ first ≠ ']' := by
  cases json with
  | null => exact ⟨_, _, rfl, rfl, by decide⟩
  | bool value => cases value <;> exact ⟨_, _, rfl, rfl, by decide⟩
  | number number =>
    cases number with
    | nan => exact ⟨_, _, rfl, rfl, by decide⟩
    | infinite negative => exact ⟨_, _, rfl, rfl, by decide⟩
    | finite negative significand exponent canonical =>
      change ∃ first others,
        (Number.finite negative significand exponent canonical).toText.toList = first :: others ∧ _
      have written : (Number.finite negative significand exponent canonical).units?.isSome := rfl
      obtain ⟨numerals, reads⟩ := Number.readStrict?_toText written
      cases text : (Number.finite negative significand exponent canonical).toText.toList with
      | nil => rw [text] at reads; cases reads
      | cons first others =>
        have numeral := numerals first (text ▸ List.mem_cons_self)
        refine ⟨first, others, rfl, isBlank_of_isNumeralCharacter numeral, ?_⟩
        rintro rfl
        cases numeral
  | text content => exact ⟨_, _, rfl, rfl, by decide⟩
  | array items => exact ⟨_, _, rfl, rfl, by decide⟩
  | object members => exact ⟨_, _, rfl, rfl, by decide⟩

theorem separated_begins (part : List Char) (parts : List (List Char)) :
    ∃ tail, separated (part :: parts) = part ++ tail := by
  cases parts with
  | nil => exact ⟨[], (List.append_nil part).symm⟩
  | cons next parts => exact ⟨_, rfl⟩

theorem items_begin (item : JsonValue) (items : List JsonValue) :
    ∃ first others, separated (itemTexts (item :: items)) = first :: others ∧ isBlank first = false ∧
      first ≠ ']' := by
  obtain ⟨tail, text⟩ := separated_begins item.characters (itemTexts items)
  obtain ⟨first, others, begins, told⟩ := characters_begin item
  exact ⟨first, others ++ tail, by rw [itemTexts, text, begins, List.cons_append], told⟩

theorem members_begin (member : String × JsonValue) (members : List (String × JsonValue)) :
    ∃ others, separated (memberTexts (member :: members)) = '"' :: others := by
  obtain ⟨tail, text⟩ := separated_begins (quoted member.1 ++ ':' :: member.2.characters)
    (memberTexts members)
  exact ⟨_, text⟩

theorem items_go_on (item next : JsonValue) (items : List JsonValue) :
    separated (itemTexts (item :: next :: items)) =
      item.characters ++ ',' :: separated (itemTexts (next :: items)) := rfl

theorem members_go_on (key : String) (value : JsonValue) (next : String × JsonValue)
    (members : List (String × JsonValue)) :
    separated (memberTexts ((key, value) :: next :: members)) =
      quoted key ++ ':' :: value.characters ++ ',' :: separated (memberTexts (next :: members)) := rfl

theorem readValue?_array {first : Char} (solid : isBlank first = false) (other : first ≠ ']')
    (others : List Char) (depth : Nat) :
    readValue? (depth + 1) ('[' :: first :: others) =
      (readItems? depth (first :: others)).map fun (items, rest) => (.array items, rest) := by
  have begins : skipBlank ('[' :: first :: others) = '[' :: first :: others := skipBlank_cons rfl _
  unfold readValue?
  rw [begins]
  simp only [skipBlank_cons solid]
  split
  next same => exact absurd (List.cons.inj same).1 other
  next => rfl

theorem readValue?_object (others : List Char) (depth : Nat) :
    readValue? (depth + 1) ('\x7b' :: '"' :: others) =
      (readMembers? depth ('"' :: others)).map fun (members, rest) => (.object members, rest) := rfl

mutual

theorem readValue?_characters (json : JsonValue) (depth : Nat)
    (enough : 2 * json.characters.length ≤ depth) (rest : List Char)
    (ends : ∀ next ∈ rest.head?, isNumeralCharacter next = false) :
    readValue? depth (json.characters ++ rest) = some (json.told, rest) := by
  obtain ⟨_, _, begins, _⟩ := characters_begin json
  cases depth with
  | zero =>
    rw [begins, List.length_cons] at enough
    omega
  | succ depth =>
    cases json with
    | null => simp [characters, readValue?, skipBlank, isBlank, told]
    | bool value => cases value <;> simp [characters, readValue?, skipBlank, isBlank, told]
    | number number =>
      cases number with
      | nan => simp [characters, numeral, readValue?, skipBlank, isBlank, told, Number.units?]
      | infinite negative => simp [characters, numeral, readValue?, skipBlank, isBlank, told, Number.units?]
      | finite negative significand exponent canonical =>
        have written : (Number.finite negative significand exponent canonical).units?.isSome := rfl
        obtain ⟨numerals, reads⟩ := Number.readStrict?_toText written
        exact readValue?_number reads numerals ends depth
    | text content =>
      have reads := readString?_quoted content rest
      simp [characters, quoted, readValue?, skipBlank, isBlank, told, reads]
    | array items =>
      cases items with
      | nil => simp [characters, itemTexts, separated, readValue?, skipBlank, isBlank, told, toldItems]
      | cons item items =>
        obtain ⟨first, others, begin, solid, other⟩ := items_begin item items
        have reads := readItems?_texts (item :: items) depth
          (by simp only [characters, List.length_append, List.length_cons] at enough; omega) nofun rest
        simp only [characters, begin, List.cons_append, List.append_assoc, List.nil_append] at reads ⊢
        rw [readValue?_array solid other, reads]
        rfl
    | object members =>
      cases members with
      | nil =>
        simp [characters, memberTexts, separated, readValue?, skipBlank, isBlank, told, toldMembers]
      | cons member members =>
        obtain ⟨others, begin⟩ := members_begin member members
        have reads := readMembers?_texts (member :: members) depth
          (by simp only [characters, List.length_append, List.length_cons] at enough; omega) nofun rest
        simp only [characters, begin, List.cons_append, List.append_assoc, List.nil_append] at reads ⊢
        rw [readValue?_object, reads]
        rfl

theorem readItems?_texts (items : List JsonValue) (depth : Nat)
    (enough : 2 * (separated (itemTexts items)).length < depth) (present : items ≠ []) (rest : List Char) :
    readItems? depth (separated (itemTexts items) ++ ']' :: rest) = some (toldItems items, rest) := by
  cases depth with
  | zero => cases enough
  | succ depth =>
    cases items with
    | nil => exact absurd rfl present
    | cons item items =>
      cases items with
      | nil =>
        have reads := readValue?_characters item depth (by simp [itemTexts, separated] at enough; omega)
          (']' :: rest) (by rintro next ⟨⟩; rfl)
        simp [itemTexts, separated, readItems?, reads, skipBlank, isBlank, toldItems]
      | cons next items =>
        rw [items_go_on] at enough ⊢
        simp only [List.length_append, List.length_cons] at enough
        -- Every comma pays for the step that reads past it.
        have later := readItems?_texts (next :: items) depth (by omega) nofun rest
        generalize separated (itemTexts (next :: items)) = tail at enough later ⊢
        have reads := readValue?_characters item depth (by omega) (',' :: (tail ++ ']' :: rest))
          (by rintro next ⟨⟩; rfl)
        simp [readItems?, reads, later, skipBlank, isBlank, toldItems]

theorem readMembers?_texts (members : List (String × JsonValue)) (depth : Nat)
    (enough : 2 * (separated (memberTexts members)).length < depth) (present : members ≠ [])
    (rest : List Char) :
    readMembers? depth (separated (memberTexts members) ++ '\x7d' :: rest) =
      some (toldMembers members, rest) := by
  cases depth with
  | zero => cases enough
  | succ depth =>
    cases members with
    | nil => exact absurd rfl present
    | cons member members =>
      obtain ⟨key, value⟩ := member
      cases members with
      | nil =>
        simp only [memberTexts, separated, List.length_append, List.length_cons] at enough
        have reads := readValue?_characters value depth (by omega) ('\x7d' :: rest)
          (by rintro next ⟨⟩; rfl)
        have keyed := readString?_quoted key (':' :: (value.characters ++ '\x7d' :: rest))
        simp [memberTexts, separated, quoted, readMembers?, keyed, reads, skipBlank, isBlank, toldMembers]
      | cons next members =>
        rw [members_go_on] at enough ⊢
        simp only [List.length_append, List.length_cons] at enough
        have later := readMembers?_texts (next :: members) depth (by omega) nofun rest
        generalize separated (memberTexts (next :: members)) = tail at enough later ⊢
        have reads := readValue?_characters value depth (by omega) (',' :: (tail ++ '\x7d' :: rest))
          (by rintro next ⟨⟩; rfl)
        have keyed := readString?_quoted key (':' :: (value.characters ++ ',' :: (tail ++ '\x7d' :: rest)))
        simp [quoted, readMembers?, keyed, reads, later, skipBlank, isBlank, toldMembers]

end

theorem read?_toText (json : JsonValue) : read? json.toText = some json.told := by
  have length : json.toText.length = json.characters.length := String.length_ofList
  have reads := readValue?_characters json (2 * json.characters.length + 1) (Nat.le_succ _) [] nofun
  rw [List.append_nil] at reads
  unfold read?
  rw [length, toText, String.toList_ofList, reads]
  rfl

end Values

section Printable

def Printable (text : List Char) : Prop := ∀ character ∈ text, 0x20 ≤ character.toNat

instance (text : List Char) : Decidable (Printable text) := List.decidableBAll _ text

theorem printable_cons {character : Char} {text : List Char} :
    Printable (character :: text) ↔ 0x20 ≤ character.toNat ∧ Printable text := List.forall_mem_cons

theorem printable_append {early late : List Char} :
    Printable (early ++ late) ↔ Printable early ∧ Printable late := List.forall_mem_append

theorem printable_of_isNumeralCharacter {character : Char}
    (numeral : Decimal.isNumeralCharacter character = true) : 0x20 ≤ character.toNat := by
  rcases Bool.or_eq_true_iff.1 numeral with digit | mark
  · have least : '0'.toNat ≤ character.toNat := (Char.isDigit_iff_toNat.1 digit).1
    exact Nat.le_trans (by decide) least
  · have among : character ∈ ['.', 'e', 'E', '+', '-'] := of_decide_eq_true mark
    simp only [List.mem_cons, List.not_mem_nil, or_false] at among
    rcases among with rfl | rfl | rfl | rfl | rfl <;> decide

theorem escape_printable (character : Char) : Printable (escape character) := by
  have digits : ∀ code, code < 0x20 →
      Printable ['\\', 'u', '0', '0', hexDigit (code / 16), hexDigit (code % 16)] := by decide
  unfold escape
  split
  all_goals try decide
  dsimp only
  split
  next low => exact digits _ low
  next high => exact printable_cons.2 ⟨Nat.not_lt.1 high, nofun⟩

theorem quoted_printable (text : String) : Printable (quoted text) := by
  rw [quoted, List.cons_append, printable_cons, printable_append]
  refine ⟨by decide, fun written member => ?_, by decide⟩
  obtain ⟨character, _, escaped⟩ := List.mem_flatMap.1 member
  exact escape_printable character written escaped

theorem separated_printable {parts : List (List Char)} (printable : ∀ part ∈ parts, Printable part) :
    Printable (separated parts) := by
  induction parts with
  | nil => nofun
  | cons part rest ih =>
    rw [List.forall_mem_cons] at printable
    cases rest with
    | nil => exact printable.1
    | cons next rest =>
      exact printable_append.2 ⟨printable.1, printable_cons.2 ⟨by decide, ih printable.2⟩⟩

mutual

theorem characters_printable (json : JsonValue) : Printable json.characters := by
  cases json with
  | null => decide
  | bool value => cases value <;> decide
  | number number =>
    cases number with
    | nan => decide
    | infinite negative => exact (by decide : Printable "null".toList)
    | finite negative significand exponent canonical =>
      have written : (Number.finite negative significand exponent canonical).units?.isSome := rfl
      exact fun character member =>
        printable_of_isNumeralCharacter ((Number.readStrict?_toText written).1 character member)
  | text content => exact quoted_printable content
  | array items =>
    have parts := separated_printable (itemTexts_printable items)
    rw [characters, List.cons_append, printable_cons, printable_append]
    exact ⟨by decide, parts, by decide⟩
  | object members =>
    have parts := separated_printable (memberTexts_printable members)
    rw [characters, List.cons_append, printable_cons, printable_append]
    exact ⟨by decide, parts, by decide⟩

theorem itemTexts_printable (items : List JsonValue) : ∀ part ∈ itemTexts items, Printable part := by
  cases items with
  | nil => nofun
  | cons item items =>
    rw [itemTexts, List.forall_mem_cons]
    exact ⟨characters_printable item, itemTexts_printable items⟩

theorem memberTexts_printable (members : List (String × JsonValue)) :
    ∀ part ∈ memberTexts members, Printable part := by
  cases members with
  | nil => nofun
  | cons member members =>
    obtain ⟨key, value⟩ := member
    rw [memberTexts, List.forall_mem_cons, printable_append, printable_cons]
    exact ⟨⟨quoted_printable key, by decide, characters_printable value⟩, memberTexts_printable members⟩

end

end Printable

end JsonText

end Collections.Diagnostics
