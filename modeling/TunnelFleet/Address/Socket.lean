import TunnelFleet.Address.Basic

namespace TunnelFleet

structure WideAddress where
  groups : List Nat
  length_eq : groups.length = 8
deriving DecidableEq

inductive SocketAddress where
  | v4 (address : Address) (port : Nat)
  | v6 (address : WideAddress) (scope port : Nat)
deriving DecidableEq

namespace SocketAddress

def digitOf? (base : Nat) (c : Char) : Option Nat :=
  let value :=
    if '0' ≤ c ∧ c ≤ '9' then some (c.toNat - '0'.toNat)
    else if 'a' ≤ c ∧ c ≤ 'f' then some (c.toNat - 'a'.toNat + 10)
    else if 'A' ≤ c ∧ c ≤ 'F' then some (c.toNat - 'A'.toNat + 10)
    else none
  value.filter (· < base)

/-- The longest run of digits, as a number and its length, and what follows. -/
def digitRun (base : Nat) : Nat → Nat → List Char → Nat × Nat × List Char
  | value, count, [] => (value, count, [])
  | value, count, c :: cs =>
      match digitOf? base c with
      | some d => digitRun base (base * value + d) (count + 1) cs
      | none => (value, count, c :: cs)

def number? (limit : Nat) (cs : List Char) : Option (Nat × List Char) :=
  let (value, count, rest) := digitRun 10 0 0 cs
  if count = 0 ∨ limit < value then none else some (value, rest)

def octet? (cs : List Char) : Option (Nat × List Char) :=
  let (value, count, rest) := digitRun 10 0 0 cs
  if count = 0 ∨ 3 < count ∨ 255 < value ∨ (cs.head? = some '0' ∧ 1 < count) then none
  else some (value, rest)

def group? (cs : List Char) : Option (Nat × List Char) :=
  let (value, count, rest) := digitRun 16 0 0 cs
  if count = 0 ∨ 4 < count then none else some (value, rest)

def mark? (mark : Char) : List Char → Option (List Char)
  | c :: cs => if c = mark then some cs else none
  | [] => none

def quad? (cs : List Char) : Option (Address × List Char) := do
  let (a, cs) ← octet? cs
  let cs ← mark? '.' cs
  let (b, cs) ← octet? cs
  let cs ← mark? '.' cs
  let (c, cs) ← octet? cs
  let cs ← mark? '.' cs
  let (d, cs) ← octet? cs
  let address ← Address.ofOctets? [a, b, c, d]
  some (address, cs)

/-- Takes up to `room` groups between colons. A dotted quad may stand for the last two of them and
ends the run; the flag tells whether it did. `first` is whether no colon is due. -/
def groups (first : Bool) : Nat → List Char → List Nat × Bool × List Char
  | 0, cs => ([], false, cs)
  | room + 1, cs =>
      match if first then some cs else mark? ':' cs with
      | none => ([], false, cs)
      | some body =>
          match if 1 ≤ room then quad? body else none with
          | some (address, rest) =>
              ([address.val / 65536, address.val % 65536], true, rest)
          | none =>
              match group? body with
              | none => ([], false, cs)
              | some (value, rest) =>
                  let (values, dotted, rest) := groups false room rest
                  (value :: values, dotted, rest)

def wide? (values : List Nat) : Option WideAddress :=
  if h : values.length = 8 then some ⟨values, h⟩ else none

/-- Eight groups, or fewer with one double colon that stands for the missing zeros. -/
def wideAddress? (cs : List Char) : Option (WideAddress × List Char) := do
  let (head, dotted, rest) := groups true 8 cs
  if head.length = 8 then
    let address ← wide? head
    return (address, rest)
  if dotted then none
  let rest ← mark? ':' rest
  let rest ← mark? ':' rest
  let (tail, _, rest) := groups true (7 - head.length) rest
  let address ← wide? (head ++ List.replicate (8 - head.length - tail.length) 0 ++ tail)
  return (address, rest)

def port? (cs : List Char) : Option (Nat × List Char) :=
  (mark? ':' cs).bind (number? 65535)

/-- A zone after a percent sign; without one the scope is zero. -/
def scope (cs : List Char) : Nat × List Char :=
  ((mark? '%' cs).bind (number? 4294967295)).getD (0, cs)

def v4? (cs : List Char) : Option (SocketAddress × List Char) := do
  let (address, cs) ← quad? cs
  let (port, cs) ← port? cs
  some (.v4 address port, cs)

def v6? (cs : List Char) : Option (SocketAddress × List Char) := do
  let cs ← mark? '[' cs
  let (address, cs) ← wideAddress? cs
  let (scope, cs) := scope cs
  let cs ← mark? ']' cs
  let (port, cs) ← port? cs
  some (.v6 address scope port, cs)

def ofText? (s : String) : Option SocketAddress :=
  match (v4? s.toList).or (v6? s.toList) with
  | some (address, []) => some address
  | _ => none

/-- The first longest run of zeros, as its start and length. -/
def zeroRun (values : List Nat) : Nat × Nat :=
  let runs := (List.range values.length).map fun start =>
    (start, ((values.drop start).takeWhile (· == 0)).length)
  runs.foldl (fun best run => if best.2 < run.2 then run else best) (0, 0)

def groupsText (values : List Nat) : String :=
  String.intercalate ":" (values.map fun value => String.ofList (Nat.toDigits 16 value))

/-- The canonical form: two colons for the first longest run of at least two zeros, and a dotted
quad where a narrow address is embedded. -/
def wideText (address : WideAddress) : String :=
  match address.groups with
  | [0, 0, 0, 0, 0, 0xffff, high, low] =>
      match Address.ofOctets? [high / 256, high % 256, low / 256, low % 256] with
      | some narrow => "::ffff:" ++ narrow.text
      | none => groupsText address.groups
  | values =>
      let (start, count) := zeroRun values
      if count ≤ 1 then groupsText values
      else groupsText (values.take start) ++ "::" ++ groupsText (values.drop (start + count))

def text : SocketAddress → String
  | .v4 address port => address.text ++ ":" ++ toString port
  | .v6 address scope port =>
      "[" ++ wideText address ++ (if scope = 0 then "" else "%" ++ toString scope) ++ "]:" ++
        toString port

end SocketAddress

end TunnelFleet
