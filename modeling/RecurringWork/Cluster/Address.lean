import RecurringWork.Json.Decode
import RecurringWork.Json.Printer

/-!
# RecurringWork.Cluster.Address

**Network addresses of nodes.** An address is an IP address of either family and a
port. Addresses are ordered by the raw bytes of the IP address and then by the port;
every node that sorts the same members gets the same order.

The text of an IPv4 address is its four bytes in decimal. That of an IPv6 address is
its eight groups in hexadecimal, with the longest run of at least two zero groups
written as two colons (the first run, if there are several), except that an address
of the IPv4-mapped range shows the IPv4 address it maps. Reading accepts every
spelling the standards allow but leading zeros in IPv4.
-/

namespace RecurringWork

/-- An IP address. -/
inductive Ip
  | v4 (octets : Vector UInt8 4)
  | v6 (groups : Vector UInt16 8)
  deriving DecidableEq, Repr

namespace Ip

/-- The bytes of an address, the first of the wire first. -/
def octets : Ip → List Nat
  | .v4 os => os.toList.map UInt8.toNat
  | .v6 gs => gs.toList.flatMap fun g => [g.toNat / 256, g.toNat % 256]

/-- The node itself, in IPv4. -/
def localhost : Ip := .v4 #v[127, 0, 0, 1]

/-- The text of an IPv4 address. -/
def dotted (os : List Nat) : List Char :=
  List.intercalate ['.'] (os.map decimalDigits)

/-- Groups with colons between them. -/
def colonSeparated (gs : List Nat) : List Char :=
  List.intercalate [':'] (gs.map (Nat.toDigits 16))

/-- How many zeros a list begins with. -/
def leadingZeros (gs : List Nat) : Nat := (gs.takeWhile (· == 0)).length

/-- Where the longest run of zeros begins and how long it is, the first of several.
`index` is the position of the list in the whole. -/
def longestZeros : Nat → List Nat → Nat × Nat
  | _, [] => (0, 0)
  | index, g :: gs =>
      let here := leadingZeros (g :: gs)
      let later := longestZeros (index + 1) gs
      if later.2 ≤ here then (index, here) else later

/-- The text of an IPv6 address outside the mapped range. -/
def compressed (gs : List Nat) : List Char :=
  let (start, length) := longestZeros 0 gs
  if 1 < length then
    colonSeparated (gs.take start) ++ [':', ':'] ++ colonSeparated (gs.drop (start + length))
  else colonSeparated gs

/-- The bytes of the IPv4 address that an IPv6 address maps. -/
def mapped? (gs : List Nat) : Option (List Nat) :=
  match gs with
  | [0, 0, 0, 0, 0, 0xffff, g, h] => some [g / 256, g % 256, h / 256, h % 256]
  | _ => none

/-- The text of an address. -/
def render (ip : Ip) : String :=
  match ip with
  | .v4 os => String.ofList (dotted (os.toList.map UInt8.toNat))
  | .v6 gs =>
      let ns := gs.toList.map UInt16.toNat
      match mapped? ns with
      | some os => String.ofList ("::ffff:".toList ++ dotted os)
      | none => String.ofList (compressed ns)

namespace Scan

/-- A decimal byte: at most three digits, no leading zero, below 256. -/
def octet (cs : List Char) : Option (Nat × List Char) :=
  let ds := cs.takeWhile Char.isDigit
  let n := digitsValue ds
  if ds = [] ∨ 3 < ds.length ∨ 255 < n ∨ (1 < ds.length ∧ ds.head? = some '0') then none
  else some (n, cs.dropWhile Char.isDigit)

/-- `count` bytes, a point before each of them but the first of four. -/
def octets : Nat → List Char → Option (List Nat × List Char)
  | 0, cs => some ([], cs)
  | count + 1, cs => do
      let cs ← if count + 1 = 4 then some cs else
        match cs with
        | '.' :: r => some r
        | _ => none
      let (o, r) ← octet cs
      let (os, r) ← octets count r
      pure (o :: os, r)

/-- The value of hexadecimal digits. -/
def hexValue (ds : List Char) : Nat :=
  ds.foldl (fun n c => n * 16 + (Json.Scan.hexValue? c).getD 0) 0

def isHexDigit (c : Char) : Bool := (Json.Scan.hexValue? c).isSome

/-- A group of one to four hexadecimal digits. -/
def group (cs : List Char) : Option (Nat × List Char) :=
  let ds := cs.takeWhile isHexDigit
  if ds = [] ∨ 4 < ds.length then none else some (hexValue ds, cs.dropWhile isHexDigit)

/-- The text behind the colon that precedes every group but the first. -/
def separated (first : Bool) (cs : List Char) : Option (List Char) :=
  if first then some cs
  else match cs with
    | ':' :: r => some r
    | _ => none

/-- At most `count` groups. Four bytes in IPv4 notation stand for the last two of
them; the answer says whether they did. -/
def groups : Bool → Nat → List Char → List Nat × Bool × List Char
  | _, 0, cs => ([], false, cs)
  | first, count + 1, cs =>
      let embedded :=
        if count = 0 then none else (separated first cs).bind (octets 4)
      match embedded with
      | some ([a, b, c, d], r) => ([a * 256 + b, c * 256 + d], true, r)
      | _ =>
          match (separated first cs).bind group with
          | none => ([], false, cs)
          | some (g, r) =>
              let (gs, tail, r) := groups false count r
              (g :: gs, tail, r)

/-- Eight groups, or fewer around two colons that stand for at least one zero
group. -/
def v6 (cs : List Char) : Option (List Nat × List Char) :=
  let (front, isTail, r) := groups true 8 cs
  if front.length = 8 then some (front, r)
  else if isTail then none
  else
    match r with
    | ':' :: ':' :: r =>
        let (back, _, r) := groups true (7 - front.length) r
        some (front ++ List.replicate (8 - front.length - back.length) 0 ++ back, r)
    | _ => none

end Scan

/-- The IPv4 address of four bytes. -/
def ofOctets? : List Nat → Option Ip
  | [a, b, c, d] => some (.v4 #v[a.toUInt8, b.toUInt8, c.toUInt8, d.toUInt8])
  | _ => none

/-- The IPv6 address of eight groups. -/
def ofGroups? : List Nat → Option Ip
  | [a, b, c, d, e, f, g, h] =>
      some (.v6 #v[a.toUInt16, b.toUInt16, c.toUInt16, d.toUInt16,
        e.toUInt16, f.toUInt16, g.toUInt16, h.toUInt16])
  | _ => none

/-- The address that a text denotes. -/
def read? (s : String) : Option Ip :=
  match Scan.octets 4 s.toList with
  | some (os, r) => if r.isEmpty then ofOctets? os else none
  | none =>
      match Scan.v6 s.toList with
      | some (gs, r) => if r.isEmpty then ofGroups? gs else none
      | none => none

end Ip

/-- The network identity of a node. -/
structure Address where
  ip : Ip
  port : UInt16
  deriving DecidableEq, Repr

namespace Address

/-- Byte strings in the order of a dictionary. -/
def compareOctets : List Nat → List Nat → Ordering
  | [], [] => .eq
  | [], _ :: _ => .lt
  | _ :: _, [] => .gt
  | a :: as, b :: bs => if a < b then .lt else if b < a then .gt else compareOctets as bs

/-- The order of nodes: by the bytes of the IP address, then by port. -/
def order (a b : Address) : Ordering :=
  (compareOctets a.ip.octets b.ip.octets).then (compare a.port.toNat b.port.toNat)

def isOrdered (a b : Address) : Bool := a.order b != .gt

/-- The members in order, each once. -/
def sorted (members : List Address) : List Address := (members.mergeSort isOrdered).eraseDups

/-- The address with its port, an IPv6 address in brackets. -/
def render (a : Address) : String :=
  match a.ip with
  | .v4 _ => a.ip.render ++ ":" ++ toString a.port.toNat
  | .v6 _ => "[" ++ a.ip.render ++ "]:" ++ toString a.port.toNat

/-- A port below 65536 behind a colon, up to the end of the text. -/
def readPort? : List Char → Option UInt16
  | ':' :: ds =>
      if ds ≠ [] ∧ ds.all Char.isDigit ∧ digitsValue ds < 65536 then
        some (digitsValue ds).toUInt16
      else none
  | _ => none

/-- The address that a text in that form denotes. -/
def read? (s : String) : Option Address :=
  match s.toList with
  | '[' :: cs => do
      let (gs, r) ← Ip.Scan.v6 cs
      let ip ← Ip.ofGroups? gs
      match r with
      | ']' :: r => pure ⟨ip, ← readPort? r⟩
      | _ => none
  | cs => do
      let (os, r) ← Ip.Scan.octets 4 cs
      pure ⟨← Ip.ofOctets? os, ← readPort? r⟩

def toJson (a : Address) : Json :=
  .obj [("ip", .str a.ip.render), ("port", .ofNat a.port.toNat)]

def ofJson? (j : Json) : Option Address := do
  let ms ← j.record? ["ip", "port"]
  let ip ← Json.required? (fun j => j.text?.bind Ip.read?) "ip" ms
  let port ← Json.required? Json.nat16? "port" ms
  pure ⟨ip, port.toUInt16⟩

def decode? (text : String) : Option Address := (Json.read? text).bind ofJson?

end Address

end RecurringWork
