import TunnelFleet.Api.Request
import TunnelFleet.Json.Reader
import TunnelFleet.Json.Writer
import TunnelFleet.Object.Reader

namespace TunnelFleet.Api

def reasons : List (Nat × String) :=
  [(400, "Bad Request"), (401, "Unauthorized"), (402, "Payment Required"), (403, "Forbidden"),
    (404, "Not Found"), (405, "Method Not Allowed"), (406, "Not Acceptable"),
    (407, "Proxy Authentication Required"), (408, "Request Timeout"), (409, "Conflict"),
    (410, "Gone"), (411, "Length Required"), (412, "Precondition Failed"),
    (413, "Payload Too Large"), (414, "URI Too Long"), (415, "Unsupported Media Type"),
    (416, "Range Not Satisfiable"), (417, "Expectation Failed"), (418, "I'm a teapot"),
    (421, "Misdirected Request"), (422, "Unprocessable Entity"), (423, "Locked"),
    (424, "Failed Dependency"), (425, "Too Early"), (426, "Upgrade Required"),
    (428, "Precondition Required"), (429, "Too Many Requests"),
    (431, "Request Header Fields Too Large"), (451, "Unavailable For Legal Reasons"),
    (500, "Internal Server Error"), (501, "Not Implemented"), (502, "Bad Gateway"),
    (503, "Service Unavailable"), (504, "Gateway Timeout"), (505, "HTTP Version Not Supported"),
    (506, "Variant Also Negotiates"), (507, "Insufficient Storage"), (508, "Loop Detected"),
    (510, "Not Extended"), (511, "Network Authentication Required")]

def statusLine (code : Nat) : String :=
  toString code ++ " " ++ (reasons.lookup code).getD "<unknown status code>"

open Json (Members Written)

def member? (ms : Members) (key : String) : Option (Option Written) :=
  match ms.filter fun (found, _, _) => found.toOption == some key with
  | [] => some none
  | [(_, value, _)] => some (some value)
  | _ => none

def memberText? (ms : Members) (key : String) : Option (Option String) := do
  match ← member? ms key with
  | none => some none
  | some value => value.text.toOption.map some

def code? (w : Written) : Option Nat :=
  match w with
  | .whole code _ => if code < 0 ∨ 65536 ≤ code then none else some code.toNat
  | _ => none

/-- A refusal as a cluster writes it: by names, of which the status and the code must be there, or
as a list of all four parts. -/
def refusal? : Written → Option Refusal
  | .object _ ms (.ok _) => do
      if ms.any fun (key, _, _) => key.toOption.isNone then none
      let status ← (← memberText? ms "status")
      let message ← memberText? ms "message"
      let reason ← memberText? ms "reason"
      let code ← code? (← (← member? ms "code"))
      some ⟨status, message.getD "", reason.getD "", code⟩
  | .list _ _ [status, message, reason, code] (.ok _) => do
      some ⟨← status.text.toOption, ← message.text.toOption, ← reason.text.toOption, ← code? code⟩
  | _ => none

/-- What a client makes of a response that refuses a request. A body that is no refusal is
quoted. -/
def refusalOf (code : Nat) (body : String) : Refusal :=
  match (Json.read (fun w => .ok (refusal? w)) body).toOption.join with
  | some refusal => refusal
  | none => ⟨statusLine code, Text.quoted body, "Failed to parse error data", code⟩

def refuses (code : Nat) : Bool :=
  400 ≤ code && code < 600

/-- A response that awaits the next request of a method whose path holds a text. Without a body of
its own it says that the method is refused. -/
structure Fault where
  method : String
  pathPart : String
  code : Nat
  body : Option String
deriving DecidableEq

def occurs (part : List Char) : List Char → Bool
  | [] => part.isEmpty
  | c :: cs => part.isPrefixOf (c :: cs) || occurs part cs

namespace Fault

def hits (f : Fault) (r : Request) : Bool :=
  f.method == r.method && occurs f.pathPart.toList r.path.toList

def statement (f : Fault) : Json :=
  .object [("apiVersion", .string "v1"), ("code", .nat f.code), ("kind", .string "Status"),
    ("message", .string (f.method ++ " refused")), ("metadata", .object []),
    ("reason", .string "Injected"), ("status", .string "Failure")]

def text (f : Fault) : String :=
  f.body.getD f.statement.text

def reply {α : Type} (f : Fault) (read : Reads α) : Except ClusterFault α :=
  if refuses f.code then .error (.refused (refusalOf f.code f.text))
  else
    match Json.read read f.text with
    | .ok found => .ok found
    | .error fault => .error (.unreadable fault)

end Fault

end TunnelFleet.Api
