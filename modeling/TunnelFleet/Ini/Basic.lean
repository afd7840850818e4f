import TunnelFleet.Text.Quoted

namespace TunnelFleet.Ini

inductive Item where
  | header (name : String)
  | entry (key value : String)
deriving DecidableEq

structure Section where
  name : String
  entries : List (String × String)
deriving DecidableEq

/-- What a text says, in its order. Sections of one name stay apart. -/
structure Document where
  general : List (String × String)
  sections : List Section
deriving DecidableEq

/-- An entry belongs to the header before it, or to the general part if there is none. -/
def Document.ofItems : List Item → Document
  | [] => ⟨[], []⟩
  | .entry key value :: rest =>
      let doc := ofItems rest
      { doc with general := (key, value) :: doc.general }
  | .header name :: rest =>
      let doc := ofItems rest
      ⟨[], ⟨name, doc.general⟩ :: doc.sections⟩

def value? (entries : List (String × String)) (key : String) : Option String :=
  (entries.find? fun entry => entry.1 == key).map (·.2)

def Document.section? (doc : Document) (name : String) : Option Section :=
  doc.sections.find? fun part => part.name == name

structure Cursor where
  rest : List Char
  line : Nat
  col : Nat
deriving DecidableEq

/-- Why a text cannot be read. An absent stop is the end of the text. -/
inductive Cause where
  | inlineComment
  | missingKey
  | unended (stops : List (Option Char))
  | brokenCode (found : Option Char)
  | badCode
deriving DecidableEq

structure Fault where
  cause : Cause
  place : Cursor
deriving DecidableEq

def optionText : Option Char → String
  | some c => "Some(" ++ Text.quotedChar c ++ ")"
  | none => "None"

def Cause.message : Cause → String
  | .inlineComment => "doesn't support inline comment"
  | .missingKey => "missing key"
  | .unended stops =>
      "expecting \"[" ++ String.intercalate ", " (stops.map optionText) ++ "]\" but found EOF."
  | .brokenCode found => "expecting \"\\\\n\" but found \"" ++ optionText found ++ "\"."
  | .badCode => "unknown character in \\xHH form"

/-- Lines and columns are counted from one. -/
def Fault.message (f : Fault) : String :=
  toString (f.place.line + 1) ++ ":" ++ toString (f.place.col + 1) ++ " " ++ f.cause.message

end TunnelFleet.Ini
