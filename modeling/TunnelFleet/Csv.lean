namespace TunnelFleet.Csv

def isSpecial (c : Char) : Bool :=
  c == ',' || c == '"' || c == '\r' || c == '\n'

def doubled : List Char → List Char
  | [] => []
  | c :: cs => if c = '"' then '"' :: '"' :: doubled cs else c :: doubled cs

/-- A field is quoted when it holds a comma, a quote or a line end. -/
def fieldChars (s : String) : List Char :=
  if s.toList.any isSpecial then '"' :: doubled s.toList ++ ['"'] else s.toList

def recordChars (fields : List String) : List Char :=
  [','].intercalate (fields.map fieldChars) ++ ['\n']

structure Record where
  fields : List String
  line : Nat
  byte : Nat
deriving DecidableEq

/-- What the next character means: a record may begin, a field may begin, a bare field goes on, a
quoted field goes on, or a quote inside a quoted field was just met. -/
inductive Phase where
  | record
  | field
  | bare
  | quoted
  | quote
deriving DecidableEq

/-- The reader between two characters. Characters, fields and records stand newest first; `line`
and `byte` tell where the record under way began. -/
structure Scan where
  phase : Phase
  chars : List Char
  fields : List String
  line : Nat
  byte : Nat
  atLine : Nat
  atByte : Nat
  done : List Record

namespace Scan

def start (byte : Nat) : Scan :=
  ⟨.record, [], [], 1, byte, 1, byte, []⟩

def pass (s : Scan) (c : Char) : Scan :=
  { s with
    atLine := if c = '\n' then s.atLine + 1 else s.atLine
    atByte := s.atByte + c.utf8Size }

def endField (s : Scan) : Scan :=
  { s with phase := .field, chars := [], fields := String.ofList s.chars.reverse :: s.fields }

def endRecord (s : Scan) : Scan :=
  let ended := s.endField
  { ended with
    phase := .record
    fields := []
    line := s.atLine
    byte := s.atByte
    done := ⟨ended.fields.reverse, s.line, s.byte⟩ :: s.done }

def add (s : Scan) (phase : Phase) (c : Char) : Scan :=
  { s with phase := phase, chars := c :: s.chars }

def bareChar (s : Scan) (c : Char) : Scan :=
  if c = ',' then s.endField
  else if c = '\n' ∨ c = '\r' then s.endRecord
  else s.add .bare c

def fieldChar (s : Scan) (c : Char) : Scan :=
  if c = '"' then { s with phase := .quoted } else s.bareChar c

/-- Line ends before a record are passed over. A quote right behind a closing one stands for a
quote; anything else behind it is outside. -/
def step (before : Scan) (c : Char) : Scan :=
  let s := before.pass c
  match before.phase with
  | .record => if c = '\n' ∨ c = '\r' then s else s.fieldChar c
  | .field => s.fieldChar c
  | .bare => s.bareChar c
  | .quoted => if c = '"' then { s with phase := .quote } else s.add .quoted c
  | .quote => if c = '"' then s.add .quoted c else s.bareChar c

def finish (s : Scan) : List Record :=
  match s.phase with
  | .record => s.done.reverse
  | _ => s.endRecord.done.reverse

end Scan

/-- The records of a text. A byte order mark before them counts, but says nothing. -/
def records (s : String) : List Record :=
  match s.toList with
  | '\uFEFF' :: cs => (cs.foldl Scan.step (.start 3)).finish
  | cs => (cs.foldl Scan.step (.start 0)).finish

end TunnelFleet.Csv
