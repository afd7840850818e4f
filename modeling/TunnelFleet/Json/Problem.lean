import TunnelFleet.Decimal.Shortest
import TunnelFleet.Text.Quoted

namespace TunnelFleet.Json

structure Place where
  line : Nat := 1
  column : Nat := 0
deriving DecidableEq

instance : Inhabited Place :=
  ⟨{}⟩

namespace Place

def bytes (p : Place) (count : Nat) : Place :=
  { p with column := p.column + count }

def byte (p : Place) : Place :=
  p.bytes 1

def behind (p : Place) (c : Char) : Place :=
  if c = '\n' then ⟨p.line + 1, 0⟩ else p.bytes c.utf8Size

end Place

inductive Problem where
  | endOfList
  | endOfObject
  | endOfString
  | endOfValue
  | expectedColon
  | expectedListEnd
  | expectedObjectEnd
  | expectedIdent
  | expectedValue
  | badEscape
  | badNumber
  | outOfRange
  | loneSurrogate
  | endOfEscape
  | controlCharacter
  | badKey
  | trailingComma
  | trailingCharacters
  | badInstant
  | wrongType (found expected : String)
  | wrongValue (found expected : String)
  | missing (field : String)
deriving DecidableEq

def Problem.text : Problem → String
  | .endOfList => "EOF while parsing a list"
  | .endOfObject => "EOF while parsing an object"
  | .endOfString => "EOF while parsing a string"
  | .endOfValue => "EOF while parsing a value"
  | .expectedColon => "expected `:`"
  | .expectedListEnd => "expected `,` or `]`"
  | .expectedObjectEnd => "expected `,` or `\x7d`"
  | .expectedIdent => "expected ident"
  | .expectedValue => "expected value"
  | .badEscape => "invalid escape"
  | .badNumber => "invalid number"
  | .outOfRange => "number out of range"
  | .loneSurrogate => "lone leading surrogate in hex escape"
  | .endOfEscape => "unexpected end of hex escape"
  | .controlCharacter => "control character (\\u0000-\\u001F) found while parsing a string"
  | .badKey => "key must be a string"
  | .trailingComma => "trailing comma"
  | .trailingCharacters => "trailing characters"
  | .badInstant => "input contains invalid characters"
  | .wrongType found expected => "invalid type: " ++ found ++ ", expected " ++ expected
  | .wrongValue found expected => "invalid value: " ++ found ++ ", expected " ++ expected
  | .missing field => "missing field `" ++ field ++ "`"

structure Fault where
  problem : Problem
  place : Place
deriving DecidableEq

def Fault.text (f : Fault) : String :=
  f.problem.text ++ " at line " ++ toString f.place.line ++ " column " ++ toString f.place.column

end TunnelFleet.Json
