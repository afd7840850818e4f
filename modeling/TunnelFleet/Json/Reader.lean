import TunnelFleet.Json.Written

namespace TunnelFleet.Json

structure Cursor where
  place : Place
  rest : List Char

instance : Inhabited Cursor :=
  ⟨⟨{}, []⟩⟩

def isBetween (c : Char) : Bool :=
  c == ' ' || c == '\t' || c == '\n' || c == '\r'

def skip (place : Place) : List Char → Cursor
  | [] => ⟨place, []⟩
  | c :: cs => if isBetween c then skip (place.behind c) cs else ⟨place, c :: cs⟩

def Cursor.skip (c : Cursor) : Cursor :=
  Json.skip c.place c.rest

def Cursor.peek (c : Cursor) : Place :=
  match c.rest with
  | [] => c.place
  | '\n' :: _ => c.place.behind '\n'
  | _ :: _ => c.place.byte

def hexValue? (c : Char) : Option Nat :=
  if '0' ≤ c ∧ c ≤ '9' then some (c.toNat - '0'.toNat)
  else if 'a' ≤ c ∧ c ≤ 'f' then some (c.toNat - 'a'.toNat + 10)
  else if 'A' ≤ c ∧ c ≤ 'F' then some (c.toNat - 'A'.toNat + 10)
  else none

def unit? (a b c d : Char) : Option Nat := do
  some ((((← hexValue? a) * 16 + (← hexValue? b)) * 16 + (← hexValue? c)) * 16 + (← hexValue? d))

def isHigh (unit : Nat) : Bool :=
  0xD800 ≤ unit && unit < 0xDC00

def isLow (unit : Nat) : Bool :=
  0xDC00 ≤ unit && unit < 0xE000

def paired (high low : Nat) : Char :=
  Char.ofNat (0x10000 + (high - 0xD800) * 0x400 + (low - 0xDC00))

def escaped? (c : Char) : Option Char :=
  if c = '"' ∨ c = '\\' ∨ c = '/' then some c
  else if c = 'b' then some (Char.ofNat 8)
  else if c = 'f' then some (Char.ofNat 12)
  else if c = 'n' then some '\n'
  else if c = 'r' then some '\r'
  else if c = 't' then some '\t'
  else none

def placeBehind (place : Place) (cs : List Char) : Place :=
  cs.foldl Place.behind place

/-- What a string shows: its text to one who reads it, and what follows it to one who only passes
over it. -/
abbrev StringScan :=
  Except Fault String × Except Fault Cursor

def unfinished (done : Except Fault (List Char)) (fault : Fault) : StringScan :=
  (match done with
    | .ok _ => .error fault
    | .error earlier => .error earlier, .error fault)

def spoil (done : Except Fault (List Char)) (fault : Fault) : Except Fault (List Char) :=
  match done with
  | .ok _ => .error fault
  | .error earlier => .error earlier

/-- A high surrogate must be followed by the escape of a low one. Where the text ends instead, that
is what is wrong. -/
def spoilHigh (done : Except Fault (List Char)) (place : Place) :
    List Char → Except Fault (List Char)
  | [] => done
  | '\\' :: [] => done
  | '\\' :: 'u' :: _ => done
  | '\\' :: _ => spoil done ⟨.endOfEscape, place.bytes 2⟩
  | _ => spoil done ⟨.endOfEscape, place.byte⟩

/-- The rest of a string after its opening quote. `done` is what was read, newest first. -/
def stringFrom (done : Except Fault (List Char)) (place : Place) : List Char → StringScan
  | [] => unfinished done ⟨.endOfString, place⟩
  | '"' :: cs => (done.map fun read => String.ofList read.reverse, .ok ⟨place.byte, cs⟩)
  | '\\' :: 'u' :: a :: b :: c :: d :: cs =>
      match unit? a b c d with
      | none => unfinished done ⟨.badEscape, place.bytes 6⟩
      | some first =>
          if isLow first then
            stringFrom (spoil done ⟨.loneSurrogate, place.bytes 6⟩) (place.bytes 6) cs
          else if isHigh first then
            match cs with
            | '\\' :: 'u' :: e :: f :: g :: h :: rest =>
                match unit? e f g h with
                | none => unfinished done ⟨.badEscape, place.bytes 12⟩
                | some second =>
                    if isLow second then
                      stringFrom (done.map (paired first second :: ·)) (place.bytes 12) rest
                    else
                      stringFrom (spoil done ⟨.loneSurrogate, place.bytes 12⟩) (place.bytes 6)
                        ('\\' :: 'u' :: e :: f :: g :: h :: rest)
            | rest => stringFrom (spoilHigh done (place.bytes 6) rest) (place.bytes 6) rest
          else stringFrom (done.map (Char.ofNat first :: ·)) (place.bytes 6) cs
  | '\\' :: 'u' :: cs => unfinished done ⟨.endOfString, placeBehind (place.bytes 2) cs⟩
  | '\\' :: e :: cs =>
      match escaped? e with
      | none => unfinished done ⟨.badEscape, place.bytes 2⟩
      | some found => stringFrom (done.map (found :: ·)) (place.bytes 2) cs
  | '\\' :: [] => unfinished done ⟨.endOfString, place.byte⟩
  | c :: cs =>
      if c.toNat < 32 then unfinished done ⟨.controlCharacter, (Cursor.mk place (c :: cs)).peek⟩
      else stringFrom (done.map (c :: ·)) (place.behind c) cs
termination_by cs => cs.length

def isDigit (c : Char) : Bool :=
  '0' ≤ c && c ≤ '9'

def digitValue (c : Char) : Nat :=
  c.toNat - '0'.toNat

def Cursor.digits (c : Cursor) : List Char × Cursor :=
  let ds := c.rest.takeWhile isDigit
  (ds, ⟨c.place.bytes ds.length, c.rest.drop ds.length⟩)

def greatestSignificand : Nat :=
  18446744073709551615

/-- Takes digits into a significand as long as it can hold them, and tells how many were left. -/
def gather (significand : Nat) : List Char → Nat × Nat
  | [] => (significand, 0)
  | d :: ds =>
      let next := significand * 10 + digitValue d
      if greatestSignificand < next then (significand, (d :: ds).length) else gather next ds

structure Parts where
  negative : Bool
  before : List Char
  after : List Char
  exponent : Int
  isWhole : Bool

namespace Parts

/-- The number as a binary float. Digits that the significand cannot hold count for nothing but
their place. -/
def real (p : Parts) : Except Problem Decimal.Binary :=
  let (significand, left) := gather 0 p.before
  let (significand, dropped) := gather significand p.after
  let places : Int := left - (p.after.length - dropped : Nat)
  match Decimal.Binary.scaled? significand (places + p.exponent) with
  | none => .error .outOfRange
  | some value => .ok { value with negative := p.negative }

/-- A whole number of 64 bits stays one; a negative zero does not. -/
def written (p : Parts) (stop : Place) : Written :=
  let size : Int := p.before.foldl (fun n d => n * 10 + digitValue d) 0
  if !p.isWhole then .real p.real stop
  else if p.negative then
    if size = 0 ∨ 9223372036854775808 < size then .real p.real stop else .whole (-size) stop
  else if greatestSignificand < size then .real p.real stop
  else .whole size stop

end Parts

abbrev Scan :=
  Written × Except Fault Cursor

def broken (fault : Fault) : Scan :=
  (.broken fault fault, .error fault)

/-- A number that breaks off. At the end of the text only one who reads it sees that more was to
come. -/
def brokenNumber (c : Cursor) (place : Place) : Scan :=
  let passed : Fault := ⟨.badNumber, place⟩
  match c.rest with
  | [] => (.broken ⟨.endOfValue, c.place⟩ passed, .error passed)
  | _ => broken passed

def exponentFrom (parts : Parts) (c : Cursor) : Scan :=
  match c.rest with
  | e :: cs =>
      if e = 'e' ∨ e = 'E' then
        let (negative, c) := match cs with
          | '-' :: cs => (true, Cursor.mk (c.place.bytes 2) cs)
          | '+' :: cs => (false, Cursor.mk (c.place.bytes 2) cs)
          | cs => (false, Cursor.mk c.place.byte cs)
        let (ds, behind) := c.digits
        if ds.isEmpty then brokenNumber c c.peek
        else
          let size : Int := ds.foldl (fun n d => n * 10 + digitValue d) 0
          let parts := { parts with
            exponent := if negative then -size else size, isWhole := false }
          (parts.written behind.place, .ok behind)
      else (parts.written c.place, .ok c)
  | [] => (parts.written c.place, .ok c)

def fractionFrom (parts : Parts) (c : Cursor) : Scan :=
  match c.rest with
  | '.' :: cs =>
      let c := Cursor.mk c.place.byte cs
      let (ds, behind) := c.digits
      if ds.isEmpty then brokenNumber c c.peek
      else exponentFrom { parts with after := ds, isWhole := false } behind
  | _ => exponentFrom parts c

def numberFrom (c : Cursor) : Scan :=
  let (negative, c) := match c.rest with
    | '-' :: cs => (true, Cursor.mk c.place.byte cs)
    | _ => (false, c)
  let (ds, behind) := c.digits
  match ds with
  | [] => brokenNumber c c.peek
  | '0' :: _ :: _ => broken ⟨.badNumber, c.place.bytes 2⟩
  | ds => fractionFrom ⟨negative, ds, [], 0, true⟩ behind

/-- The rest of a word, of which every character is looked at until one is wrong. -/
def wordFrom (value : Place → Written) : List Char → Cursor → Scan
  | [], c => (value c.place, .ok c)
  | w :: ws, c =>
      match c.rest with
      | [] => broken ⟨.endOfValue, c.place⟩
      | d :: ds =>
          if w = d then wordFrom value ws ⟨c.place.byte, ds⟩ else broken ⟨.expectedIdent, c.peek⟩

def scalarFrom (c : Cursor) : Scan :=
  match c.rest with
  | [] => broken ⟨.endOfValue, c.place⟩
  | '"' :: cs =>
      match stringFrom (.ok []) c.place.byte cs with
      | (read, .ok behind) => (.string read behind.place, .ok behind)
      | (.error fault, .error passed) => (.broken fault passed, .error passed)
      | (.ok _, .error passed) => broken passed
  | 't' :: cs => wordFrom (.bool true) "rue".toList ⟨c.place.byte, cs⟩
  | 'f' :: cs => wordFrom (.bool false) "alse".toList ⟨c.place.byte, cs⟩
  | 'n' :: cs => wordFrom .null "ull".toList ⟨c.place.byte, cs⟩
  | d :: _ => if d = '-' ∨ isDigit d then numberFrom c else broken ⟨.expectedValue, c.peek⟩

mutual

def valueFrom : Nat → Cursor → Scan
  | 0, c => broken ⟨.expectedValue, c.place⟩
  | fuel + 1, c =>
      let c := c.skip
      match c.rest with
      | '[' :: cs =>
          let inside := skip c.place.byte cs
          let (items, behind) := itemsFrom fuel [] inside
          (.list c.place inside.place items (behind.map Cursor.place), behind)
      | '\x7b' :: cs =>
          let (members, behind) := membersFrom fuel [] (skip c.place.byte cs)
          (.object c.place members (behind.map Cursor.place), behind)
      | _ => scalarFrom c

/-- The items of a list from where one may begin or, if there was none yet, the list may end. -/
def itemsFrom : Nat → List Written → Cursor → List Written × Except Fault Cursor
  | 0, done, c => (done.reverse, .error ⟨.endOfList, c.place⟩)
  | fuel + 1, done, c =>
      match c.rest, done with
      | [], [] => ([], .error ⟨.endOfList, c.place⟩)
      | [], done => (done.reverse, .error ⟨.endOfValue, c.place⟩)
      | ']' :: cs, [] => ([], .ok ⟨c.place.byte, cs⟩)
      | ']' :: _, done => (done.reverse, .error ⟨.trailingComma, c.peek⟩)
      | _, done =>
          match valueFrom fuel c with
          | (item, .error fault) => ((item :: done).reverse, .error fault)
          | (item, .ok behind) =>
              let c := behind.skip
              match c.rest with
              | ']' :: cs => ((item :: done).reverse, .ok ⟨c.place.byte, cs⟩)
              | ',' :: cs => itemsFrom fuel (item :: done) (skip c.place.byte cs)
              | [] => ((item :: done).reverse, .error ⟨.endOfList, c.place⟩)
              | _ => ((item :: done).reverse, .error ⟨.expectedListEnd, c.peek⟩)

def membersFrom : Nat → Members → Cursor → Members × Except Fault Cursor
  | 0, done, c => (done.reverse, .error ⟨.endOfObject, c.place⟩)
  | fuel + 1, done, c =>
      match c.rest, done with
      | [], [] => ([], .error ⟨.endOfObject, c.place⟩)
      | [], done => (done.reverse, .error ⟨.endOfValue, c.place⟩)
      | '\x7d' :: cs, [] => ([], .ok ⟨c.place.byte, cs⟩)
      | '\x7d' :: _, done => (done.reverse, .error ⟨.trailingComma, c.peek⟩)
      | '"' :: cs, done =>
          match stringFrom (.ok []) c.place.byte cs with
          | (_, .error fault) => (done.reverse, .error fault)
          | (key, .ok behind) =>
              let c := behind.skip
              match c.rest with
              | ':' :: cs =>
                  match valueFrom fuel ⟨c.place.byte, cs⟩ with
                  | (value, .error fault) =>
                      (((key, value, c.place) :: done).reverse, .error fault)
                  | (value, .ok behind) =>
                      let c := behind.skip
                      match c.rest with
                      | '\x7d' :: cs =>
                          let place := c.place.byte
                          (((key, value, place) :: done).reverse, .ok ⟨place, cs⟩)
                      | ',' :: cs =>
                          membersFrom fuel ((key, value, c.place) :: done) (skip c.place.byte cs)
                      | [] => (((key, value, c.place) :: done).reverse,
                          .error ⟨.endOfObject, c.place⟩)
                      | _ => (((key, value, c.place) :: done).reverse,
                          .error ⟨.expectedObjectEnd, c.peek⟩)
              | [] => (done.reverse, .error ⟨.endOfObject, c.place⟩)
              | _ => (done.reverse, .error ⟨.expectedColon, c.peek⟩)
      | _, done => (done.reverse, .error ⟨.badKey, c.peek⟩)

end

variable {α : Type}

/-- Reads a text that holds one value and nothing else. Every step takes a character or is followed
by one that does, so the steps are bounded by the length of the text. -/
def read (readValue : Written → Except Fault α) (s : String) : Except Fault α := do
  let (w, behind) := valueFrom (2 * s.length + 2) ⟨{}, s.toList⟩
  let found ← readValue w
  let behind := (← behind).skip
  if behind.rest.isEmpty then return found else .error ⟨.trailingCharacters, behind.peek⟩

def ofText (s : String) : Except Fault Json :=
  read Written.value s

end TunnelFleet.Json
