import TunnelFleet.CommandLine
import TunnelFleet.Failure

namespace TunnelFleet

/-- How a program ends: with a code and a complaint, or not at all. -/
inductive Ending where
  | exited (code : Nat) (complaint : String)
  | endless
deriving DecidableEq

namespace Ending

def indented (margin text : String) : String :=
  String.join ((Text.splitAt '\n' text.toList).mapIdx fun index line =>
    (if index = 0 then "" else "\n" ++ margin) ++ String.ofList line)

def numbered (index : Nat) (cause : String) : String :=
  let number := toString index
  String.ofList (List.replicate (5 - number.length) ' ') ++ number ++ ": " ++
    indented "       " cause ++ "\n"

/-- What lies behind a complaint; a cause that is the only one has no number. -/
def causesText : List String → String
  | [] => ""
  | [cause] => "\nCaused by:\n    " ++ indented "    " cause ++ "\n"
  | causes => "\nCaused by:\n" ++ String.join (causes.mapIdx numbered)

def finished : Ending :=
  .exited 0 ""

def failed (message : String) (causes : List String) : Ending :=
  .exited 1 ("Error: " ++ message ++ "\n" ++ causesText causes)

def ofFailure (failure : Failure) : Ending :=
  failed failure.message failure.causes

def ofCauses : List String → Ending
  | [] => failed "" []
  | message :: causes => failed message causes

def ofUsage : UsageError → Ending
  | .displayHelp => finished
  | .displayVersion => finished
  | _ => .exited 2 ""

end Ending

end TunnelFleet
