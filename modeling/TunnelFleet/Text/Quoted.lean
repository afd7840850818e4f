import TunnelFleet.Text.Visible

namespace TunnelFleet.Text

def codePoint (c : Char) : String :=
  "\\u\x7b" ++ String.ofList (Nat.toDigits 16 c.toNat) ++ "\x7d"

/-- One character between quotes of the kind `quote`: that quote and the backslash are escaped,
what does not show is written by its number, and all else stands for itself. -/
def escapeChar (quote c : Char) : String :=
  if c = Char.ofNat 0 then "\\0"
  else if c = '\t' then "\\t"
  else if c = '\n' then "\\n"
  else if c = '\r' then "\\r"
  else if c = '\\' || c = quote then "\\" ++ String.singleton c
  else if isVisible c then String.singleton c
  else codePoint c

def quoted (s : String) : String :=
  "\"" ++ String.join (s.toList.map (escapeChar '"')) ++ "\""

def quotedChar (c : Char) : String :=
  "'" ++ escapeChar '\'' c ++ "'"

def jsonChar (c : Char) : String :=
  if c = '"' then "\\\""
  else if c = '\\' then "\\\\"
  else if c = '\n' then "\\n"
  else if c = '\r' then "\\r"
  else if c = '\t' then "\\t"
  else if c = Char.ofNat 8 then "\\b"
  else if c = Char.ofNat 12 then "\\f"
  else if c.toNat < 16 then "\\u000" ++ String.ofList (Nat.toDigits 16 c.toNat)
  else if c.toNat < 32 then "\\u00" ++ String.ofList (Nat.toDigits 16 c.toNat)
  else String.singleton c

def json (s : String) : String :=
  "\"" ++ String.join (s.toList.map jsonChar) ++ "\""

end TunnelFleet.Text
