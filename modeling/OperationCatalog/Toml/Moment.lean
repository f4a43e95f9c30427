import OperationCatalog.Text.Digit
import OperationCatalog.Text.Scan
import OperationCatalog.Value

/-!
# TOML dates and times

A date, a time, or both, with or without an offset.  Such a value is an object whose one field holds
its canonical text.
-/

namespace OperationCatalog.Toml

/-- A number of exactly `count` digits between two bounds. -/
def field (count low high : Nat) : Scan Nat := do
  let n := Text.decimal (← Scan.count Char.isDigit count)
  Scan.require (low ≤ n && n ≤ high)
  return n

/-- A number with zeros before it up to a width. -/
def padded (width n : Nat) : String :=
  let ds := Nat.toDigits 10 n
  String.ofList (List.replicate (width - ds.length) '0' ++ ds)

/-- How many days a month has. -/
def daysIn (year month : Nat) : Nat :=
  if month = 2 then
    if year % 4 = 0 ∧ (year % 100 ≠ 0 ∨ year % 400 = 0) then 29 else 28
  else if month ∈ [4, 6, 9, 11] then 30
  else 31

/-- A date. -/
def date : Scan String := do
  let year ← field 4 0 9999
  Scan.exactly ['-']
  let month ← field 2 1 12
  Scan.exactly ['-']
  let day ← field 2 1 31
  Scan.require (day ≤ daysIn year month)
  return padded 4 year ++ "-" ++ padded 2 month ++ "-" ++ padded 2 day

/-- The digits behind the point of the seconds: nine count, and zeros at the end do not. -/
def secondsFraction : Scan String := do
  Scan.exactly ['.']
  let ds ← Scan.someRun Char.isDigit
  let kept := ((ds.take 9).reverse.dropWhile (· = '0')).reverse
  return if kept.isEmpty then "" else "." ++ String.ofList kept

/-- A time of day; a minute may have a leap second. -/
def time : Scan String := do
  let hour ← field 2 0 23
  Scan.exactly [':']
  let minute ← field 2 0 59
  Scan.exactly [':']
  let second ← field 2 0 60
  let fraction ← Scan.maybe secondsFraction
  return padded 2 hour ++ ":" ++ padded 2 minute ++ ":" ++ padded 2 second ++ fraction.getD ""

/-- The distance from universal time; a negative one of no minutes is written as positive. -/
def offset : Scan String :=
  (do
    let _ ← Scan.satisfy fun c => c = 'Z' || c = 'z'
    return "Z")
  <|> do
    let mark ← Scan.satisfy fun c => c = '+' || c = '-'
    let hour ← field 2 0 23
    Scan.exactly [':']
    let minute ← field 2 0 59
    let negative := mark = '-' && hour + minute ≠ 0
    return (if negative then "-" else "+") ++ padded 2 hour ++ ":" ++ padded 2 minute

/-- The time and offset that may follow a date. -/
def timeAfterDate : Scan String := do
  let _ ← Scan.satisfy fun c => c = 'T' || c = 't' || c = ' '
  let t ← time
  let o ← Scan.maybe offset
  return "T" ++ t ++ o.getD ""

/-- The name under which a date or time holds its text. -/
def momentField : String := "$__toml_private_datetime"

/-- A date or time. -/
def moment : Scan Value := do
  let s ← (do
    let d ← date
    return d ++ (← Scan.maybe timeAfterDate).getD "") <|> time
  return .object [(momentField, .text s)]

end OperationCatalog.Toml
