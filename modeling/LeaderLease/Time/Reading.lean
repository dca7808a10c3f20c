import LeaderLease.Time.Timestamp
import LeaderLease.Text.WhiteSpace

/-!
Reading timestamps, leniently: white space may surround the parts, numbers may be short, and the offset from UTC may
be written in several ways. A number is judged as soon as it is read, the date as a whole after the last character.
-/

namespace LeaderLease.Timestamp

inductive ReadError where
  | endedEarly
  | unexpectedCharacter
  | trailingText
  | outOfRange
  | beyondCalendar
  deriving DecidableEq

def ReadError.message : ReadError → String
  | endedEarly => "premature end of input"
  | unexpectedCharacter => "input contains invalid characters"
  | trailingText => "trailing input"
  | outOfRange => "input is out of range"
  | beyondCalendar => "no possible date and time matching input"

abbrev Scan := StateT (List Char) (Except ReadError)

namespace Scan

def blanks : Scan Unit := modify trimStart

def literal (c : Char) : Scan Unit := do
  match ← get with
  | [] => throw .endedEarly
  | d :: rest => if d = c then set rest else throw .unexpectedCharacter

def digits (limit : Nat) : Scan (List Char) := do
  match ← get with
  | [] => throw .endedEarly
  | text =>
    let ds := (text.take limit).takeWhile Decimal.isDigit
    if ds = [] then throw .unexpectedCharacter
    set (text.drop ds.length)
    return ds

def allDigits : Scan (List Char) := do digits (← get).length

/-- A number in a range, of up to `width` digits after white space. -/
def number (width least greatest : Nat) : Scan Nat := do
  blanks
  let n := Decimal.value 0 (← digits width)
  if least ≤ n ∧ n ≤ greatest then return n else throw .outOfRange

/-- The year has up to four digits, or any number of them after a sign, and fits 32 bits. -/
def year : Scan Int := do
  blanks
  let n : Int ← match ← get with
    | '-' :: rest => do
      set rest
      pure (-(Decimal.value 0 (← allDigits) : Int))
    | '+' :: rest => do
      set rest
      pure (Decimal.value 0 (← allDigits) : Int)
    | _ => do pure (Decimal.value 0 (← digits 4) : Int)
  if -2147483648 ≤ n ∧ n ≤ 2147483647 then return n else throw .outOfRange

/-- The mark between two numbers may have white space before it. -/
def separator (c : Char) : Scan Unit := do
  blanks
  literal c

/-- The date and the clock are kept apart by a letter or by one blank. -/
def dateEnd : Scan Unit := do
  match ← get with
  | [] => throw .endedEarly
  | c :: rest => if c = 'T' ∨ c = 't' ∨ c = ' ' then set rest else throw .unexpectedCharacter

/-- The nanoseconds after a point. The first nine digits count. -/
def fraction : Scan Nat := do
  match ← get with
  | '.' :: rest =>
    set rest
    let ds ← digits 9
    modify (·.dropWhile Decimal.isDigit)
    return Decimal.value 0 ds * Nat.pow 10 (9 - ds.length)
  | _ => return 0

/-- Two characters for two digits. A character beyond ASCII fills both places. -/
def pair : Scan (Char × Char) := do
  match ← get with
  | c :: d :: rest =>
    set rest
    return (c, d)
  | [c] => if c.utf8Size = 1 then throw .endedEarly else throw .unexpectedCharacter
  | [] => throw .endedEarly

def offsetHours : Scan Nat := do
  let (c, d) ← pair
  if Decimal.isDigit c ∧ Decimal.isDigit d then return Decimal.value 0 [c, d] else throw .unexpectedCharacter

def offsetMinutes : Scan Nat := do
  let (c, d) ← pair
  if Decimal.isDigit c ∧ Decimal.isDigit d then
    let n := Decimal.value 0 [c, d]
    if n < 60 then return n else throw .outOfRange
  else throw .unexpectedCharacter

/-- Hours and minutes, with any colons and white space between them. -/
def offsetAmount : Scan Int := do
  let hours ← offsetHours
  modify (·.dropWhile fun c => c == ':' || isWhiteSpace c)
  let minutes ← offsetMinutes
  return hours * 60 + minutes

def offset : Scan Int := do
  match ← get with
  | [] => throw .endedEarly
  | c :: rest =>
    match rest with
    | d :: e :: more =>
      if c.toLower = 'u' ∧ d.toLower = 't' ∧ e.toLower = 'c' then
        set more
        return 0
    | _ => pure ()
    if c = 'Z' ∨ c = 'z' then
      set rest
      return 0
    else if c = '+' then
      set rest
      offsetAmount
    else if c = '-' ∨ c = '\u2212' then
      set rest
      return -(← offsetAmount)
    else throw .unexpectedCharacter

/-- The parts of a written timestamp, each in its own range. -/
structure Parts where
  year : Int
  month : Nat
  day : Nat
  hour : Nat
  minute : Nat
  second : Nat
  nanos : Nat
  /-- Minutes ahead of UTC. -/
  offset : Int

def parts : Scan Parts := do
  let year ← year
  separator '-'
  let month ← number 2 1 12
  separator '-'
  let day ← number 2 1 31
  dateEnd
  let hour ← number 2 0 23
  separator ':'
  let minute ← number 2 0 59
  separator ':'
  let second ← number 2 0 60
  let nanos ← fraction
  blanks
  let offset ← offset
  return { year, month, day, hour, minute, second, nanos, offset }

end Scan

/-- The instant at which a local clock shows these parts. Second 60 is a leap second at any minute. -/
def ofParts (p : Scan.Parts) : Except ReadError Timestamp :=
  match Date.ofFields? p.year p.month p.day with
  | none => .error .outOfRange
  | some date =>
    let leap := p.second = 60
    let second := if leap then 59 else p.second
    let nanos := if leap then 1000000000 + p.nanos else p.nanos
    if h : p.hour < 24 ∧ p.minute < 60 ∧ second < 60 ∧
        (nanos < 1000000000 ∨ (second = 59 ∧ nanos < 2000000000)) then
      if p.offset.natAbs < 1440 then
        have hnanos : nanos < 2000000000 := by omega
        let shown : Timestamp := ⟨date, p.hour, p.minute, second, nanos, h.1, h.2.1, h.2.2.1, hnanos⟩
        match shown.minutesEarlier? p.offset with
        | some t => .ok t
        | none => .error .beyondCalendar
      else .error .outOfRange
    else .error .outOfRange

/-- The instant that a text denotes. White space may follow it. -/
def read (text : List Char) : Except ReadError Timestamp :=
  match Scan.parts.run text with
  | .error e => .error e
  | .ok (p, rest) => if trimStart rest = [] then ofParts p else .error .trailingText

end LeaderLease.Timestamp
