import Collections.Proofs.Number.Decimals

set_option autoImplicit false

namespace Collections.Decimal

def isStrict (text : List Char) : Bool :=
  let whole := text.takeWhile Char.isDigit
  !whole.isEmpty && (whole.length == 1 || whole.head? != some '0') &&
    match text.dropWhile Char.isDigit with
    | '.' :: rest => !(rest.takeWhile Char.isDigit).isEmpty
    | _ => true

def readStrict? (text : List Char) : Option Decimal := if isStrict text then read? text else none

def isNumeralCharacter (character : Char) : Bool :=
  character.isDigit || character ∈ ['.', 'e', 'E', '+', '-']

section Parts

variable {whole fraction mark digits rest : List Char} {exponent : Int}

def pointed (fraction : List Char) : List Char := if fraction = [] then [] else '.' :: fraction

theorem span_digits (digits : ∀ digit ∈ whole, digit.isDigit = true)
    (ends : ∀ next ∈ rest.head?, next.isDigit = false) :
    (whole ++ rest).takeWhile Char.isDigit = whole ∧ (whole ++ rest).dropWhile Char.isDigit = rest := by
  rw [List.takeWhile_append_of_pos digits, List.dropWhile_append_of_pos digits]
  cases rest with
  | nil => simp
  | cons next rest => simp [ends next rfl]

theorem digitsValue_eq (digits : List Char) : digitsValue digits = Nat.ofDigitChars 10 digits 0 := by
  rw [Nat.ofDigitChars_eq_foldl]
  unfold digitsValue
  congr 1
  funext value digit
  rw [Nat.mul_comm]

theorem digitsValue_toDigits (value : Nat) : digitsValue (Nat.toDigits 10 value) = value := by
  rw [digitsValue_eq, Nat.ofDigitChars_ten_toDigits]

structure Parts (whole fraction mark : List Char) (exponent : Int) : Prop where
  present : whole ≠ []
  leads : whole.length = 1 ∨ whole.head? ≠ some '0'
  whole : ∀ digit ∈ whole, digit.isDigit = true
  fraction : ∀ digit ∈ fraction, digit.isDigit = true
  ends : ∀ next ∈ mark.head?, next.isDigit = false ∧ next ≠ '.'
  marks : ∀ character ∈ mark, isNumeralCharacter character = true
  exponent : readExponent? mark = some exponent

theorem Parts.reads (parts : Parts whole fraction mark exponent) :
    readStrict? (whole ++ (pointed fraction ++ mark)) =
      some ⟨digitsValue (whole ++ fraction), exponent - fraction.length⟩ := by
  obtain ⟨present, leads, wholes, fractions, ends, -, exponents⟩ := parts
  have stop : ∀ next ∈ mark.head?, next.isDigit = false := fun next member => (ends next member).1
  have after : ∀ next ∈ (pointed fraction ++ mark).head?, next.isDigit = false := by
    unfold pointed
    split
    · exact stop
    · rintro next ⟨⟩
      rfl
  obtain ⟨taken, dropped⟩ := span_digits wholes after
  obtain ⟨fractionTaken, fractionDropped⟩ := span_digits fractions stop
  have lead : (whole.length == 1 || whole.head? != some '0') = true := by simpa using leads
  have filled : whole.isEmpty = false := by simpa using present
  unfold readStrict? isStrict read?
  simp only [taken, dropped, lead, filled]
  -- Without a fraction there is no point, and the mark must not look like one.
  by_cases none : fraction = []
  next =>
    subst none
    cases mark with
    | nil => simpa [pointed] using exponents
    | cons next rest =>
      have other := (ends next rfl).2
      simp [pointed, other, exponents]
  next =>
    simp [pointed, none, fractionTaken, fractionDropped, exponents]

theorem isNumeralCharacter_of_isDigit {character : Char} (digit : character.isDigit = true) :
    isNumeralCharacter character = true := by simp [isNumeralCharacter, digit]

theorem Parts.characters (parts : Parts whole fraction mark exponent) :
    ∀ character ∈ whole ++ (pointed fraction ++ mark), isNumeralCharacter character = true := by
  intro character member
  rcases List.mem_append.1 member with first | later
  · exact isNumeralCharacter_of_isDigit (parts.whole character first)
  · rcases List.mem_append.1 later with middle | last
    · unfold pointed at middle
      split at middle
      · cases middle
      · rcases List.mem_cons.1 middle with rfl | digit
        · rfl
        · exact isNumeralCharacter_of_isDigit (parts.fraction character digit)
    · exact parts.marks character last

end Parts

section Layout

variable {value : Nat} {decimal : Decimal}

theorem isDigit_of_mem_toDigits : ∀ digit ∈ Nat.toDigits 10 value, digit.isDigit = true :=
  fun _ => Nat.isDigit_of_mem_toDigits (by decide) (by decide)

theorem isDigit_of_mem_zeros {count : Nat} : ∀ digit ∈ Number.zeros count, digit.isDigit = true := by
  intro digit member
  rw [List.eq_of_mem_replicate member]
  rfl

theorem head_toDigits (positive : value ≠ 0) : (Nat.toDigits 10 value).head? ≠ some '0' := by
  induction value using digitCount.induct with
  | case1 value small =>
    rw [Nat.toDigits_of_lt_base small, List.head?_singleton, ne_eq, Option.some.injEq, eq_comm]
    exact fun zero => positive (Nat.zero_eq_digitChar.1 zero)
  | case2 value large ih =>
    have ih := ih (by omega)
    rw [Nat.toDigits_of_base_le (by decide) (Nat.le_of_not_lt large)]
    cases earlier : Nat.toDigits 10 (value / 10) with
    | nil => exact absurd earlier Nat.toDigits_ne_nil
    | cons first rest => rwa [earlier] at ih

theorem digitsValue_append (early late : List Char) :
    digitsValue (early ++ late) = tenTo late.length * digitsValue early + digitsValue late := by
  simp only [digitsValue_eq]
  rw [Nat.ofDigitChars_append, Nat.ofDigitChars_eq_ofDigitChars_zero]
  rfl

theorem digitsValue_zeros (count : Nat) : digitsValue (Number.zeros count) = 0 := by
  rw [digitsValue_eq, Number.zeros, Nat.ofDigitChars_replicate_zero, Nat.mul_zero]

theorem readExponent?_signed (exponent : Int) :
    readExponent? ('e' :: (if exponent < 0 then '-' else '+') :: Nat.toDigits 10 exponent.natAbs) =
      some exponent := by
  have all : (Nat.toDigits 10 exponent.natAbs).all Char.isDigit = true :=
    List.all_eq_true.2 isDigit_of_mem_toDigits
  by_cases below : exponent < 0
  next =>
    have value : -(exponent.natAbs : Int) = exponent := by omega
    simpa [readExponent?, below, all, digitsValue_toDigits, Nat.toDigits_ne_nil] using value
  next =>
    have value : (exponent.natAbs : Int) = exponent := by omega
    simpa [readExponent?, below, all, digitsValue_toDigits, Nat.toDigits_ne_nil] using value

variable {digits : List Char} (all : ∀ digit ∈ digits, digit.isDigit = true) (present : digits ≠ [])
  (lead : digits.head? ≠ some '0')

include all present lead

theorem parts_whole (count : Nat) : Parts (digits ++ Number.zeros count) [] [] 0 where
  present := by simp [present]
  leads := by
    cases digits with
    | nil => exact absurd rfl present
    | cons first rest => exact .inr lead
  whole digit member := by
    rcases List.mem_append.1 member with first | last
    · exact all digit first
    · exact isDigit_of_mem_zeros digit last
  fraction := nofun
  ends := nofun
  marks := nofun
  exponent := rfl

theorem parts_split {count : Nat} (inside : 0 < count) {mark : List Char} {exponent : Int}
    (ends : ∀ next ∈ mark.head?, next.isDigit = false ∧ next ≠ '.')
    (marks : ∀ character ∈ mark, isNumeralCharacter character = true)
    (marked : readExponent? mark = some exponent) :
    Parts (digits.take count) (digits.drop count) mark exponent where
  present := by simp [present, Nat.ne_of_gt inside]
  leads := by
    rw [List.head?_take, if_neg (Nat.ne_of_gt inside)]
    exact .inr lead
  whole digit member := all digit (List.mem_of_mem_take member)
  fraction digit member := all digit (List.mem_of_mem_drop member)
  ends := ends
  marks := marks
  exponent := marked

omit present lead in
theorem parts_below (count : Nat) : Parts ['0'] (Number.zeros count ++ digits) [] 0 where
  present := nofun
  leads := .inl rfl
  whole digit member := by
    rw [List.mem_singleton.1 member]
    rfl
  fraction digit member := by
    rcases List.mem_append.1 member with first | last
    · exact isDigit_of_mem_zeros digit first
    · exact all digit last
  ends := nofun
  marks := nofun
  exponent := rfl

omit all present lead

def Spelled (decimal : Decimal) (text : List Char) : Prop :=
  ∃ whole fraction mark exponent, text = whole ++ (pointed fraction ++ mark) ∧
    Parts whole fraction mark exponent ∧
      ∃ zeros, ⟨digitsValue (whole ++ fraction), exponent - fraction.length⟩ = decimal.padded zeros

theorem padded_zero (decimal : Decimal) : decimal.padded 0 = decimal := by simp [padded, tenTo_zero]

variable {count : Nat} (own : Nat.toDigits 10 decimal.coefficient = digits)

include own

theorem spelled_below (below : digits.length + decimal.exponent = -count) :
    Spelled decimal ('0' :: '.' :: Number.zeros count ++ digits) := by
  have value : digitsValue digits = decimal.coefficient := own ▸ digitsValue_toDigits _
  have present : digits ≠ [] := own ▸ Nat.toDigits_ne_nil
  refine ⟨['0'], Number.zeros count ++ digits, [], 0, ?_,
    parts_below (own ▸ isDigit_of_mem_toDigits) count, 0, ?_⟩
  next => simp [pointed, present]
  next =>
    have zero : digitsValue ['0'] = 0 := rfl
    rw [digitsValue_append, digitsValue_append, zero, digitsValue_zeros, value, padded_zero,
      List.length_append, Number.zeros, List.length_replicate]
    congr 1
    · simp
    · omega

variable (positive : decimal.coefficient ≠ 0)

include positive

theorem spelled_whole (whole : 0 ≤ decimal.exponent) :
    Spelled decimal (digits ++ Number.zeros decimal.exponent.toNat) := by
  have value : digitsValue digits = decimal.coefficient := own ▸ digitsValue_toDigits _
  refine ⟨digits ++ Number.zeros decimal.exponent.toNat, [], [], 0, by simp [pointed],
    parts_whole (own ▸ isDigit_of_mem_toDigits) (own ▸ Nat.toDigits_ne_nil) (own ▸ head_toDigits positive) _,
    decimal.exponent.toNat, ?_⟩
  have none : decimal.exponent - decimal.exponent.toNat = 0 := by omega
  rw [List.append_nil, digitsValue_append, digitsValue_zeros, value, padded, none]
  simp [Number.zeros, Nat.mul_comm]

theorem spelled_split (inside : 0 < count) (within : count ≤ digits.length)
    {mark : List Char} {exponent : Int} (ends : ∀ next ∈ mark.head?, next.isDigit = false ∧ next ≠ '.')
    (marks : ∀ character ∈ mark, isNumeralCharacter character = true)
    (marked : readExponent? mark = some exponent)
    (place : exponent + count = digits.length + decimal.exponent) :
    Spelled decimal (digits.take count ++
      (pointed (digits.drop count) ++ mark)) := by
  have value : digitsValue digits = decimal.coefficient := own ▸ digitsValue_toDigits _
  refine ⟨_, _, mark, exponent, rfl, parts_split (own ▸ isDigit_of_mem_toDigits)
    (own ▸ Nat.toDigits_ne_nil) (own ▸ head_toDigits positive) inside ends marks marked, 0, ?_⟩
  rw [List.take_append_drop, value, padded_zero, List.length_drop]
  congr 1
  omega

theorem layout_spelled :
    Spelled decimal (Number.layout digits (digits.length + decimal.exponent)).toList := by
  have length : 0 < digits.length := List.length_pos_iff.2 (own ▸ Nat.toDigits_ne_nil)
  unfold Number.layout
  by_cases whole : digits.length ≤ digits.length + decimal.exponent ∧ digits.length + decimal.exponent ≤ 21
  next =>
    have count : ((digits.length : Int) + decimal.exponent).toNat - digits.length =
        decimal.exponent.toNat := by omega
    rw [if_pos whole, String.toList_ofList, count]
    exact spelled_whole own positive (by omega)
  next =>
    rw [if_neg whole]
    by_cases inside : 0 < digits.length + decimal.exponent ∧ digits.length + decimal.exponent ≤ 21
    next =>
      rw [if_pos inside, String.toList_ofList]
      generalize position : ((digits.length : Int) + decimal.exponent).toNat = count
      have some : digits.drop count ≠ [] := by
        rw [ne_eq, List.drop_eq_nil_iff]
        omega
      have spelled : Spelled decimal (digits.take count ++ (pointed (digits.drop count) ++ [])) :=
        spelled_split own positive (by omega) (by omega) nofun nofun rfl (by omega)
      simpa [pointed, some] using spelled
    next =>
      rw [if_neg inside]
      by_cases below : -6 < digits.length + decimal.exponent ∧ digits.length + decimal.exponent ≤ 0
      next =>
        rw [if_pos below, String.toList_ofList]
        exact spelled_below own (by omega)
      next =>
        rw [if_neg below]
        generalize scale : (digits.length : Int) + decimal.exponent - 1 = exponent
        have sign : (if exponent < 0 then "-" else "+").toList = [if exponent < 0 then '-' else '+'] := by
          split <;> rfl
        have point : (if (digits.drop 1).isEmpty then "" else "." ++ String.ofList (digits.drop 1)).toList =
            pointed (digits.drop 1) := by
          unfold pointed
          split <;> simp_all
        have spelled : Spelled decimal (digits.take 1 ++ (pointed (digits.drop 1) ++
            'e' :: (if exponent < 0 then '-' else '+') :: Nat.toDigits 10 exponent.natAbs)) := by
          refine spelled_split own positive Nat.one_pos length ?_ ?_ (readExponent?_signed exponent) (by omega)
          next =>
            rintro next ⟨⟩
            decide
          next =>
            simp only [List.forall_mem_cons]
            refine ⟨rfl, by split <;> rfl, fun digit member => ?_⟩
            exact isNumeralCharacter_of_isDigit (isDigit_of_mem_toDigits digit member)
        simp only [String.toList_append, String.toList_ofList, sign, point, Nat.toString_eq_ofList_toDigits]
        simpa using spelled

end Layout

end Collections.Decimal

namespace Collections.Number

open Decimal

def readStrict? (text : List Char) : Option Number :=
  match text with
  | '-' :: digits => (Decimal.readStrict? digits).map (Decimal.toNumber true)
  | digits => (Decimal.readStrict? digits).map (Decimal.toNumber false)

def unsignedZero : Number → Number
  | .finite negative significand exponent canonical =>
      if significand = 0 then zero false else .finite negative significand exponent canonical
  | number => number

variable {significand exponent : Nat}

theorem layout_reads (canonical : Canonical significand exponent) (positive : significand ≠ 0)
    (negative : Bool) :
    let number := Number.finite negative significand exponent canonical
    let digits := Nat.toDigits 10 number.shortest.coefficient
    let text := (layout digits (digits.length + number.shortest.exponent)).toList
    text.head? ≠ some '-' ∧ (∀ character ∈ text, isNumeralCharacter character = true) ∧
      (Decimal.readStrict? text).map (Decimal.toNumber negative) = some number := by
  intro number digits text
  have reads : number.shortest.toNumber false = .finite false significand exponent canonical :=
    shortest_reads canonical positive negative
  have more : number.shortest.coefficient ≠ 0 := by
    intro zero
    rw [Decimal.toNumber, if_pos (.inl zero)] at reads
    cases reads
    exact positive rfl
  obtain ⟨whole, fraction, mark, exponent, laid, parts, zeros, value⟩ := layout_spelled rfl more
  have same : number.shortest.toNumber negative = number := by
    cases negative with
    | false => exact reads
    | true => rw [Decimal.toNumber_negate, reads]; rfl
  have laid : text = whole ++ (pointed fraction ++ mark) := laid
  rw [laid]
  refine ⟨?_, parts.characters, ?_⟩
  -- The first character is a digit and no sign.
  · cases whole with
    | nil => exact absurd rfl parts.present
    | cons first rest =>
      have digit := parts.whole first List.mem_cons_self
      rintro ⟨⟩
      cases digit
  · rw [parts.reads, Option.map_some, value, Decimal.toNumber_padded, same]

theorem readStrict?_toText {number : Number} (finite : number.units?.isSome) :
    (∀ character ∈ number.toText.toList, isNumeralCharacter character = true) ∧
      readStrict? number.toText.toList = some number.unsignedZero := by
  cases number with
  | nan => cases finite
  | infinite negative => cases finite
  | finite negative significand exponent canonical =>
    simp only [toText, unsignedZero]
    by_cases zero : significand = 0
    next =>
      rw [if_pos zero, if_pos zero]
      refine ⟨fun character member => ?_, rfl⟩
      rw [List.mem_singleton.1 member]
      rfl
    next =>
      rw [if_neg zero, if_neg zero]
      obtain ⟨unsigned, characters, reads⟩ := layout_reads canonical zero negative
      cases negative with
      | true =>
        refine ⟨?_, by simpa [signedText, readStrict?] using reads⟩
        simpa [signedText, isNumeralCharacter] using characters
      | false =>
        rw [signedText, if_neg (by decide)]
        refine ⟨characters, ?_⟩
        unfold readStrict?
        split
        next minus => rw [minus] at unsigned; exact absurd rfl unsigned
        next => exact reads

end Collections.Number
