import OperationCatalog.Text.Digit
import OperationCatalog.Text.Scan

/-!
# Network addresses

The addresses of both versions, their texts, and the canonical text of each: version 6 in lower case,
with its first longest run of two or more zero groups left out.
-/

namespace OperationCatalog

/-- A network address. -/
inductive Address where
  | v4 (a b c d : UInt8)
  | v6 (groups : List UInt16) (eight : groups.length = 8)
  deriving DecidableEq

namespace Address

/-- A number of a version 4 address: up to 255, without zeros before it. -/
def octet : Scan UInt8 := do
  let ds ← Scan.someRun Char.isDigit
  Scan.require (ds.length ≤ 3 && (ds.length = 1 || ds.head? ≠ some '0') && Text.decimal ds < 256)
  return UInt8.ofNat (Text.decimal ds)

/-- The four numbers of a version 4 address. -/
def octets : Scan (UInt8 × UInt8 × UInt8 × UInt8) := do
  let a ← octet
  Scan.exactly ['.']
  let b ← octet
  Scan.exactly ['.']
  let c ← octet
  Scan.exactly ['.']
  let d ← octet
  return (a, b, c, d)

/-- A group of a version 6 address: up to four hexadecimal digits. -/
def group : Scan UInt16 := do
  let ds ← Scan.someRun fun c => (Text.hexDigit? c).isSome
  Scan.require (ds.length ≤ 4)
  return UInt16.ofNat ((Text.hexadecimal? ds).getD 0)

/-- The group of two octets. -/
def groupOf (high low : UInt8) : UInt16 := UInt16.ofNat (256 * high.toNat + low.toNat)

/-- Groups with colons between them, at most `room`, and whether a version 4 address ends them, which
takes the room of two. -/
def groups (first : Bool) : (room : Nat) → Scan (List UInt16 × Bool)
  | 0 => pure ([], false)
  | room + 1 =>
    let colon : Scan Unit := if first then pure () else Scan.exactly [':']
    (do
      Scan.require (0 < room)
      colon
      let (a, b, c, d) ← octets
      return ([groupOf a b, groupOf c d], true))
    <|> (do
      colon
      let g ← group
      let (gs, ended) ← groups false room
      return (g :: gs, ended))
    <|> pure ([], false)

/-- The address of eight groups. -/
def ofGroups? (gs : List UInt16) : Option Address :=
  if h : gs.length = 8 then some (.v6 gs h) else none

/-- A version 6 address: eight groups, or fewer with two colons in the place of at least one. -/
def version6 : Scan Address := do
  let (head, ended) ← groups true 8
  if head.length = 8 then Scan.orFail (ofGroups? head)
  else
    Scan.require !ended
    Scan.exactly [':', ':']
    let (tail, _) ← groups true (7 - head.length)
    let gap := 8 - head.length - tail.length
    Scan.orFail (ofGroups? (head ++ List.replicate gap 0 ++ tail))

/-- A version 4 address. -/
def version4 : Scan Address := do
  let (a, b, c, d) ← octets
  return .v4 a b c d

/-- The address that a text denotes. -/
def ofText? (text : String) : Option Address := (version4 <|> version6).complete text.toList

/-- The numbers of a version 4 address with dots between them. -/
def dotted (a b c d : UInt8) : String :=
  ".".intercalate ([a, b, c, d].map fun n => toString n.toNat)

/-- Groups with colons between them. -/
def colonSeparated (gs : List UInt16) : String :=
  ":".intercalate (gs.map fun g => String.ofList (Nat.toDigits 16 g.toNat))

/-- Where the first longest run of zeros begins in `gs`, which stands at `index`, and its length, given
the best run before. -/
def longestZeros (best : Nat × Nat) (index : Nat) : List UInt16 → Nat × Nat
  | [] => best
  | g :: rest =>
    let length := ((g :: rest).takeWhile (· = 0)).length
    longestZeros (if best.2 < length then (index, length) else best) (index + 1) rest

/-- The canonical text of eight groups. -/
def version6Text (gs : List UInt16) : String :=
  match gs with
  | [0, 0, 0, 0, 0, 0xFFFF, high, low] =>
    let (h, l) := (high.toNat, low.toNat)
    "::ffff:" ++ dotted (UInt8.ofNat (h / 256)) (UInt8.ofNat (h % 256)) (UInt8.ofNat (l / 256))
      (UInt8.ofNat (l % 256))
  | _ =>
    let (start, length) := longestZeros (0, 0) 0 gs
    if 1 < length then
      colonSeparated (gs.take start) ++ "::" ++ colonSeparated (gs.drop (start + length))
    else colonSeparated gs

/-- The canonical text of an address. -/
def text : Address → String
  | .v4 a b c d => dotted a b c d
  | .v6 gs _ => version6Text gs

/-- The text of an address with a port. -/
def textWithPort (address : Address) (port : Nat) : String :=
  match address with
  | .v4 .. => address.text ++ ":" ++ toString port
  | .v6 .. => "[" ++ address.text ++ "]:" ++ toString port

end Address

end OperationCatalog
