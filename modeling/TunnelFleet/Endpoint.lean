import TunnelFleet.Counters
import TunnelFleet.Text.Basic

namespace TunnelFleet.Endpoint

structure Response where
  status : Nat
  contentType : Option String
  body : String
deriving DecidableEq

def pathOnly (cs : List Char) : List Char :=
  cs.takeWhile fun c => c != '?' && c != '#'

def behind? (mark : List Char) : List Char → Option (List Char)
  | [] => none
  | c :: cs =>
      if mark.isPrefixOf (c :: cs) then some ((c :: cs).drop mark.length) else behind? mark cs

/-- The path of a request target: all of it before the query, or what follows the host. A host
alone has the root path, and a target without a path is returned as it is. -/
def path (target : String) : String :=
  match target.toList with
  | '/' :: cs => String.ofList (pathOnly ('/' :: cs))
  | cs =>
      match behind? "://".toList cs with
      | none => target
      | some rest =>
          match pathOnly (rest.dropWhile fun c => c != '/' && c != '?' && c != '#') with
          | [] => "/"
          | found => String.ofList found

def respond (method target : String) (counters : Counters) : Response :=
  if method = "GET" ∧ path target = "/metrics" then
    ⟨200, some "text/plain; version=0.0.4", counters.exposition⟩
  else if path target = "/healthz" then ⟨200, none, "OK\n"⟩
  else ⟨404, none, "Not Found\n"⟩

structure Framed where
  status : Nat
  contentType : Option String
  contentLength : Nat
  body : String
deriving DecidableEq

/-- The length is that of the body, also where the body is left out. -/
def frame (method : String) (r : Response) : Framed :=
  ⟨r.status, r.contentType, r.body.utf8ByteSize, if method = "HEAD" then "" else r.body⟩

def requestLine? (raw : String) : Option (String × String) :=
  match Text.splitAt ' ' (raw.toList.takeWhile fun c => c != '\r' && c != '\n') with
  | [method, target, version] =>
      if version = "HTTP/1.1".toList ∨ version = "HTTP/1.0".toList then
        some (String.ofList method, String.ofList target)
      else none
  | _ => none

def exchange (raw : String) (counters : Counters) : Framed :=
  match requestLine? raw with
  | none => ⟨400, none, 0, ""⟩
  | some (method, target) => frame method (respond method target counters)

def requestText (method target : String) : String :=
  method ++ " " ++ target ++ " HTTP/1.1\r\nconnection: close\r\n\r\n"

end TunnelFleet.Endpoint
