import TunnelFleet.Decimal.Shortest
import TunnelFleet.Json.Basic
import TunnelFleet.Text.Quoted

namespace TunnelFleet.Json

mutual

def text : Json → String
  | .null => "null"
  | .bool value => toString value
  | .whole value => toString value
  | .real value => value.text
  | .string value => Text.json value
  | .list items => "[" ++ String.intercalate "," (itemTexts items) ++ "]"
  | .object members => "\x7b" ++ String.intercalate "," (memberTexts members) ++ "\x7d"

def itemTexts : List Json → List String
  | [] => []
  | item :: rest => item.text :: itemTexts rest

def memberTexts : List (String × Json) → List String
  | [] => []
  | (key, value) :: rest => (Text.json key ++ ":" ++ value.text) :: memberTexts rest

end

end TunnelFleet.Json
