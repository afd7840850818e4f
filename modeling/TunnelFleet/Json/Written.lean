import TunnelFleet.Json.Basic
import TunnelFleet.Json.Problem

namespace TunnelFleet.Json

/-- A value as it is written in a text, with the places that messages name. What is wrong in it is
kept where it stands, for it matters only to one who gets there. A lone surrogate spoils a string,
and a number may be out of range, only for one who reads them. -/
inductive Written where
  | null (stop : Place)
  | bool (value : Bool) (stop : Place)
  | whole (value : Int) (stop : Place)
  | real (value : Except Problem Decimal.Binary) (stop : Place)
  | string (value : Except Fault String) (stop : Place)
  | list (start inside : Place) (items : List Written) (stop : Except Fault Place)
  | object (start : Place) (members : List (Except Fault String × Written × Place))
      (stop : Except Fault Place)
  | broken (read passed : Fault)

instance : Inhabited Written :=
  ⟨.null {}⟩

abbrev Members :=
  List (Except Fault String × Written × Place)

namespace Written

mutual

def ofJson : Json → Written
  | .null => .null {}
  | .bool value => .bool value {}
  | .whole value => .whole value {}
  | .real value => .real (.ok value) {}
  | .string value => .string (.ok value) {}
  | .list items => .list {} {} (ofItems items) (.ok {})
  | .object members => .object {} (ofMembers members) (.ok {})

def ofItems : List Json → List Written
  | [] => []
  | item :: rest => ofJson item :: ofItems rest

def ofMembers : List (String × Json) → Members
  | [] => []
  | (key, value) :: rest => (.ok key, ofJson value, {}) :: ofMembers rest

end

mutual

def value : Written → Except Fault Json
  | .null _ => .ok .null
  | .bool value _ => .ok (.bool value)
  | .whole value _ => .ok (.whole value)
  | .real value stop =>
      match value with
      | .ok value => .ok (.real value)
      | .error problem => .error ⟨problem, stop⟩
  | .string value _ => value.map .string
  | .list _ _ items stop => do
      let items ← itemValues items
      let _ ← stop
      return .list items
  | .object _ members stop => do
      let members ← memberValues members
      let _ ← stop
      return .object members
  | .broken read _ => .error read

def itemValues : List Written → Except Fault (List Json)
  | [] => .ok []
  | item :: rest => do
      let item ← item.value
      return item :: (← itemValues rest)

def memberValues : Members → Except Fault (List (String × Json))
  | [] => .ok []
  | (key, value, _) :: rest => do
      let key ← key
      let value ← value.value
      return (key, value) :: (← memberValues rest)

end

def pass : Written → Except Fault Unit
  | .list _ _ _ (.error fault) => .error fault
  | .object _ _ (.error fault) => .error fault
  | .broken _ passed => .error passed
  | _ => .ok ()

/-- The fault of one who expected something else, and what was found instead. Of a list or an object
only the beginning was seen. -/
def mismatch (w : Written) (expected : String) : Fault :=
  match w with
  | .null stop => ⟨.wrongType "null" expected, stop⟩
  | .bool value stop => ⟨.wrongType ("boolean `" ++ toString value ++ "`") expected, stop⟩
  | .whole value stop => ⟨.wrongType ("integer `" ++ toString value ++ "`") expected, stop⟩
  | .real (.error problem) stop => ⟨problem, stop⟩
  | .real (.ok value) stop =>
      ⟨.wrongType ("floating point `" ++ value.text ++ "`") expected, stop⟩
  | .string (.error fault) _ => fault
  | .string (.ok value) stop => ⟨.wrongType ("string " ++ Text.quoted value) expected, stop⟩
  | .list start _ _ _ => ⟨.wrongType "sequence" expected, start⟩
  | .object start _ _ => ⟨.wrongType "map" expected, start⟩
  | .broken read _ => read

variable {α : Type}

def text : Written → Except Fault String
  | .string value _ => value
  | w => .error (w.mismatch "a string")

def boolean : Written → Except Fault Bool
  | .bool value _ => .ok value
  | w => .error (w.mismatch "a boolean")

def signed (bits : Nat) (w : Written) : Except Fault Int :=
  let expected := "i" ++ toString bits
  match w with
  | .whole value stop =>
      let bound : Nat := 1 <<< (bits - 1)
      if -(bound : Int) ≤ value ∧ value < bound then .ok value
      else .error ⟨.wrongValue ("integer `" ++ toString value ++ "`") expected, stop⟩
  | w => .error (w.mismatch expected)

def listOf (read : Written → Except Fault α) : Written → Except Fault (List α)
  | .list _ _ items stop => do
      let items ← items.mapM read
      let _ ← stop
      return items
  | w => .error (w.mismatch "a sequence")

def dictOf (read : Written → Except Fault α) : Written → Except Fault (Dict α)
  | .object _ members stop => do
      let entries ← members.mapM fun (key, value, _) => do
        let key ← key
        return (key, ← read value)
      let _ ← stop
      return Dict.ofList entries
  | w => .error (w.mismatch "a map")

def orNull (read : Written → Except Fault α) : Written → Except Fault (Option α)
  | .null _ => .ok none
  | w => (read w).map some

def inTurn (read : Members → Except Fault α) (other : String → Written → Except Fault Unit)
    (before : Members) : Members → Except Fault α
  | [] => read before
  | (key, value, behind) :: rest => do
      let name ← key
      let seen := before ++ [(key, value, behind)]
      let _ ← read seen
      other name value
      inTurn read other seen rest

def record (kind : String) (read : Members → Except Fault α) : Written → Except Fault α
  | .object _ members stop => do
      let found ← inTurn read (fun _ value => value.pass) [] members
      let _ ← stop
      return found
  | .list _ inside items stop =>
      let place := match items, stop with
        | [], .ok stop => stop
        | _, _ => inside
      .error ⟨.wrongType "sequence" kind, place⟩
  | w => .error (w.mismatch kind)

end Written

namespace Members

variable {α : Type}

def find? (ms : Members) (key : String) : Option (Written × Place) :=
  (ms.reverse.find? fun (found, _, _) =>
    match found with
    | .ok found => found == key
    | .error _ => false).map (·.2)

def optional (ms : Members) (key : String) (read : Written → Except Fault α) :
    Except Fault (Option α) :=
  match ms.find? key with
  | none => .ok none
  | some (w, _) => Written.orNull read w

def check (ms : Members) (key : String) (read : Written → Except Fault α) : Except Fault Unit := do
  let _ ← ms.optional key read

def orEmpty (ms : Members) (key : String) : Except Fault String := do
  return (← ms.optional key Written.text).getD ""

def declares (ms : Members) (key expected : String) : Except Fault Unit :=
  match ms.find? key with
  | none => .ok ()
  | some (w, behind) => do
      let found ← w.text
      if found = expected then return ()
      else .error ⟨.wrongValue ("string " ++ Text.quoted found) expected, behind⟩

end Members

end TunnelFleet.Json
