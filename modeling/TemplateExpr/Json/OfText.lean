/-
  The JSON value that a text writes, after RFC 8259: one value with blanks around it and
  nothing else. Escaped surrogates must come in pairs.
-/
import TemplateExpr.Json.Basic
import TemplateExpr.Decimal.Reading

namespace TemplateExpr.Json
open Text

def isBlank (c : Char) : Bool :=
  c == ' ' || c == '\t' || c == '\n' || c == '\r'

def skipBlanks (cs : List Char) : List Char :=
  cs.dropWhile isBlank

/-- Exactly four digits of base sixteen at the front of the text. -/
def fourDigits? (cs : List Char) : Option Nat :=
  let digits := cs.take 4
  if digits.length = 4 ∧ digits.all isHexDigit then some (digitsValue 16 digits) else none

/-- The character of an escaped number, with the length of the escape behind the `u`. A high
    surrogate needs a low one behind it. -/
def escapedNumber? (cs : List Char) : Option (Char × Nat) :=
  match fourDigits? cs with
  | none => none
  | some high =>
    if 0xD800 ≤ high ∧ high < 0xDC00 then
      match cs.drop 4 with
      | '\\' :: 'u' :: rest =>
        match fourDigits? rest with
        | none => none
        | some low =>
          if 0xDC00 ≤ low ∧ low < 0xE000 then
            some (Char.ofNat (0x10000 + (high - 0xD800) * 0x400 + (low - 0xDC00)), 10)
          else none
      | _ => none
    else if 0xDC00 ≤ high ∧ high < 0xE000 then none
    else some (Char.ofNat high, 4)

/-- The character behind a backslash, with its length. -/
def escaped? : List Char → Option (Char × Nat)
  | '"' :: _ => some ('"', 1)
  | '\\' :: _ => some ('\\', 1)
  | '/' :: _ => some ('/', 1)
  | 'b' :: _ => some ('\x08', 1)
  | 'f' :: _ => some ('\x0c', 1)
  | 'n' :: _ => some ('\n', 1)
  | 'r' :: _ => some ('\r', 1)
  | 't' :: _ => some ('\t', 1)
  | 'u' :: cs => (escapedNumber? cs).map fun (c, n) => (c, n + 1)
  | _ => none

/-- A string behind its opening quote, after the characters `seen` (last one first), and the
    text behind its closing quote. -/
def readString? (seen : List Char) : List Char → Option (String × List Char)
  | [] => none
  | c :: cs =>
    if c = '"' then some (String.ofList seen.reverse, cs)
    else if c = '\\' then
      match escaped? cs with
      | none => none
      | some (d, n) => readString? (d :: seen) (cs.drop n)
    else if c.toNat < 0x20 then none
    else readString? (c :: seen) cs
termination_by cs => cs.length
decreasing_by all_goals simp only [List.length_cons, List.length_drop]; omega

/-- The digits at the front of a text, and the text behind them. -/
def spanDigits (cs : List Char) : List Char × List Char :=
  (cs.takeWhile isDigit, cs.dropWhile isDigit)

/-- A fraction, whose digits are not missing; no fraction is fine. -/
def readFraction? : List Char → Option (List Char × List Char)
  | '.' :: cs =>
    let (digits, rest) := spanDigits cs
    if digits.isEmpty then none else some (digits, rest)
  | cs => some ([], cs)

/-- An exponent, whose digits are not missing; no exponent is fine. -/
def readExponent? : List Char → Option (Option Int × List Char)
  | c :: cs =>
    if c = 'e' ∨ c = 'E' then
      let (negative, cs) := match cs with
        | '-' :: rest => (true, rest)
        | '+' :: rest => (false, rest)
        | _ => (false, cs)
      let (digits, rest) := spanDigits cs
      if digits.isEmpty then none
      else
        let n : Int := digitsValue 10 digits
        some (some (if negative then -n else n), rest)
    else some (none, c :: cs)
  | [] => some (none, [])

/-- A number. Only zero begins with a zero; without fraction and exponent it is whole, except
    for the negative zero. -/
def readNumber? (cs : List Char) : Option (Json × List Char) := do
  let (negative, cs) := match cs with
    | '-' :: rest => (true, rest)
    | _ => (false, cs)
  let (digits, cs) := spanDigits cs
  if digits.isEmpty || (digits.length > 1 && digits.head? == some '0') then none
  else
    let (fraction, cs) ← readFraction? cs
    let (exponent, cs) ← readExponent? cs
    let n := digitsValue 10 digits
    if fraction.isEmpty && exponent.isNone && !(negative && n == 0) then
      some (whole (if negative then -(n : Int) else n), cs)
    else
      let x := Decimal.nearest (digitsValue 10 (digits ++ fraction))
        (exponent.getD 0 - fraction.length)
      if x.isFinite then some (float (if negative then -x else x), cs) else none

/-- The text behind a fixed word. -/
def readWord? (word : String) (value : Json) (cs : List Char) : Option (Json × List Char) :=
  if word.toList.isPrefixOf cs then some (value, cs.drop word.length) else none

mutual

/-- A value at the front of the text, and the text behind it, when values nest at most `n`
    deep. -/
def readValue? : Nat → List Char → Option (Json × List Char)
  | 0, _ => none
  | n + 1, cs =>
    match skipBlanks cs with
    | [] => none
    | '"' :: cs => (readString? [] cs).map fun (s, rest) => (text s, rest)
    | '[' :: cs =>
      match skipBlanks cs with
      | ']' :: rest => some (array [], rest)
      | cs => (readItems? n cs).map fun (items, rest) => (array items, rest)
    | '{' :: cs =>
      match skipBlanks cs with
      | '}' :: rest => some (object [], rest)
      | cs => (readEntries? n cs).map fun (entries, rest) => (object entries, rest)
    | 'n' :: cs => readWord? "null" null ('n' :: cs)
    | 't' :: cs => readWord? "true" (boolean true) ('t' :: cs)
    | 'f' :: cs => readWord? "false" (boolean false) ('f' :: cs)
    | cs => readNumber? cs

/-- Items up to the closing bracket. -/
def readItems? : Nat → List Char → Option (List Json × List Char)
  | 0, _ => none
  | n + 1, cs => do
    let (item, cs) ← readValue? n cs
    match skipBlanks cs with
    | ']' :: rest => some ([item], rest)
    | ',' :: rest =>
      let (items, rest) ← readItems? n rest
      some (item :: items, rest)
    | _ => none

/-- Entries up to the closing brace. -/
def readEntries? : Nat → List Char → Option (List (String × Json) × List Char)
  | 0, _ => none
  | n + 1, cs => do
    match skipBlanks cs with
    | '"' :: cs =>
      let (key, cs) ← readString? [] cs
      match skipBlanks cs with
      | ':' :: cs =>
        let (value, cs) ← readValue? n cs
        match skipBlanks cs with
        | '}' :: rest => some ([(key, value)], rest)
        | ',' :: rest =>
          let (entries, rest) ← readEntries? n rest
          some ((key, value) :: entries, rest)
        | _ => none
      | _ => none
    | _ => none

end

/-- The value that the whole text writes. Each step of the reader takes a character or is
    followed by one that does, so twice the length bounds the nesting. -/
def ofText? (source : String) : Option Json :=
  let cs := source.toList
  match readValue? (2 * cs.length + 1) cs with
  | some (value, rest) => if (skipBlanks rest).isEmpty then some value else none
  | none => none

end TemplateExpr.Json
