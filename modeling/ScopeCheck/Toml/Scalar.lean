import ScopeCheck.Text.Split
import ScopeCheck.Toml.Basic

/-!
# Numbers, dates and truth values

A value that is not a string, an array or a table is one unbroken word. This module tells what a
word stands for. Underscores may group the digits of a number; a whole number fits into 64 bits.
-/

namespace ScopeCheck.Toml

/-- The digits without the underscores between them. -/
def ungroup (digits : List Char) : Option (List Char) :=
  let groups := Text.splitChars '_' digits
  if groups.all fun group => !group.isEmpty then some groups.flatten else none

/-- The worth of a digit in a base of at most sixteen. -/
def digitValue? (base : Nat) (c : Char) : Option Nat :=
  let worth :=
    if '0' ≤ c && c ≤ '9' then some (c.toNat - '0'.toNat)
    else if 'a' ≤ c && c ≤ 'f' then some (c.toNat - 'a'.toNat + 10)
    else if 'A' ≤ c && c ≤ 'F' then some (c.toNat - 'A'.toNat + 10)
    else none
  worth.filter fun n => n < base

/-- The number that digits of a base write. -/
def ofDigits? (base : Nat) (digits : List Char) : Option Nat :=
  digits.foldlM (fun total c => (digitValue? base c).map fun worth => total * base + worth) 0

/-- Digits with underscores that may start with zeros. -/
def readNatural? (base : Nat) (digits : List Char) : Option Nat :=
  (ungroup digits).bind (ofDigits? base)

/-- Decimal digits with underscores; only zero itself starts with a zero. -/
def readDecimal? (digits : List Char) : Option Nat :=
  match ungroup digits with
  | none => none
  | some plain => if plain.head? = some '0' && 1 < plain.length then none else ofDigits? 10 plain

/-- A word without its sign, and whether the sign is a minus. -/
def splitSign : List Char → Bool × List Char
  | '-' :: rest => (true, rest)
  | '+' :: rest => (false, rest)
  | word => (false, word)

/-- The whole number that a word writes. -/
def readInteger? (word : List Char) : Option Int :=
  let number :=
    match word with
    | '0' :: 'x' :: digits => (readNatural? 16 digits).map Int.ofNat
    | '0' :: 'o' :: digits => (readNatural? 8 digits).map Int.ofNat
    | '0' :: 'b' :: digits => (readNatural? 2 digits).map Int.ofNat
    | _ =>
      let (negative, digits) := splitSign word
      (readDecimal? digits).map fun n => if negative then -Int.ofNat n else Int.ofNat n
  number.filter fun n => -9223372036854775808 ≤ n && n ≤ 9223372036854775807

/-! ## Floating-point numbers -/

/-- A decimal number: digits before a power of ten. -/
structure Decimal where
  /-- The digits as one number. -/
  digits : Nat
  /-- How many digits are written. -/
  count : Nat
  /-- The power of ten. -/
  scale : Int
deriving DecidableEq, Repr

/-- Numbers from here on are too large for 64 bits: halfway from the largest such number to the
next power of two. -/
def floatLimit : Nat := Nat.pow 2 1024 - Nat.pow 2 970

/-- Whether a number is too large for 64 bits. A number with fewer digits than places after the
point is below one. -/
def Decimal.isTooLarge (number : Decimal) : Bool :=
  if 0 ≤ number.scale then
    number.digits ≠ 0 &&
      (400 < number.scale || floatLimit ≤ number.digits * Nat.pow 10 number.scale.toNat)
  else
    let places := (-number.scale).toNat
    places < number.count && floatLimit * Nat.pow 10 places ≤ number.digits

/-- The exponent that a word writes, after its mark. -/
def readExponent? (word : List Char) : Option Int :=
  let (negative, digits) := splitSign word
  (readNatural? 10 digits).map fun n => if negative then -Int.ofNat n else Int.ofNat n

/-- The number that a word without a sign writes: a whole part with a fraction, an exponent or
both. -/
def readFraction? (word : List Char) : Option Decimal :=
  let mantissa := word.takeWhile fun c => c ≠ 'e' && c ≠ 'E'
  let exponent :=
    match word.drop mantissa.length with
    | [] => some 0
    | _ :: digits => readExponent? digits
  match Text.splitChars '.' mantissa, exponent with
  | [whole], some scale =>
    if mantissa = word then none
    else (readDecimal? whole).map fun digits => ⟨digits, whole.length, scale⟩
  | [whole, fraction], some scale =>
    match readDecimal? whole, ungroup fraction with
    | some high, some places =>
      (ofDigits? 10 places).map fun low =>
        ⟨high * Nat.pow 10 places.length + low, whole.length + places.length,
          scale - Int.ofNat places.length⟩
    | _, _ => none
  | _, _ => none

/-- Whether a word writes a floating-point number, or one of the special names. A number that is
too large is refused unless it is negative. -/
def isFloat (word : List Char) : Bool :=
  let (negative, plain) := splitSign word
  plain = "inf".toList || plain = "nan".toList ||
    match readFraction? plain with
    | some number => negative || !number.isTooLarge
    | none => false

/-! ## Dates and times -/

/-- The number that a given count of plain digits writes, if it lies between two bounds. -/
def readField? (count least most : Nat) (digits : List Char) : Option Nat :=
  if digits.length = count then
    (ofDigits? 10 digits).filter fun n => least ≤ n && n ≤ most
  else none

/-- The number of days of a month. -/
def daysIn (year month : Nat) : Nat :=
  if month = 2 then
    if year % 4 = 0 && (year % 100 ≠ 0 || year % 400 = 0) then 29 else 28
  else if month = 4 || month = 6 || month = 9 || month = 11 then 30
  else 31

/-- Whether a word is a day of the calendar. -/
def isDay (word : List Char) : Bool :=
  match Text.splitChars '-' word with
  | [yearText, monthText, dayText] =>
    match readField? 4 0 9999 yearText, readField? 2 1 12 monthText with
    | some year, some month => (readField? 2 1 (daysIn year month) dayText).isSome
    | _, _ => false
  | _ => false

/-- Whether a word is an hour and a minute. -/
def isHourMinute (word : List Char) : Bool :=
  match Text.splitChars ':' word with
  | [hour, minute] => (readField? 2 0 23 hour).isSome && (readField? 2 0 59 minute).isSome
  | _ => false

/-- Whether a word is a time of day without an offset. A minute may have a leap second. -/
def isTime (word : List Char) : Bool :=
  match Text.splitChars ':' word with
  | [hour, minute, second] =>
    isHourMinute (hour ++ ':' :: minute) &&
      match Text.splitChars '.' second with
      | [whole] => (readField? 2 0 60 whole).isSome
      | [whole, fraction] =>
        (readField? 2 0 60 whole).isSome && !fraction.isEmpty && fraction.all Char.isDigit
      | _ => false
  | _ => false

/-- Whether a word is a time of day with or without an offset. -/
def isTimeWithOffset (word : List Char) : Bool :=
  let time := word.takeWhile fun c => c ≠ 'Z' && c ≠ 'z' && c ≠ '+' && c ≠ '-'
  isTime time &&
    match word.drop time.length with
    | [] => true
    | mark :: offset => if mark = 'Z' || mark = 'z' then offset.isEmpty else isHourMinute offset

/-- Whether a word is a day, a time, or both with a mark between. -/
def isDate (word : List Char) : Bool :=
  isTime word || isDay (word.take 10) &&
    match word.drop 10 with
    | [] => true
    | mark :: time => (mark = 'T' || mark = 't' || mark = ' ') && isTimeWithOffset time

/-- The value of a word. -/
def readWord? (word : List Char) : Option Value :=
  if word = "true".toList then some (.boolean true)
  else if word = "false".toList then some (.boolean false)
  else
    match readInteger? word with
    | some n => some (.integer n)
    | none => if isFloat word then some .float else if isDate word then some .date else none

end ScopeCheck.Toml
