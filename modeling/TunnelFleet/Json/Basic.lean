import TunnelFleet.Decimal.Binary
import TunnelFleet.Dict

namespace TunnelFleet

/-- A tree of values as it goes over a connection. A number that is written with a point or an
exponent is told apart from a whole one. -/
inductive Json where
  | null
  | bool (value : Bool)
  | whole (value : Int)
  | real (value : Decimal.Binary)
  | string (value : String)
  | list (items : List Json)
  | object (members : List (String × Json))

instance : Inhabited Json :=
  ⟨.null⟩

namespace Json

mutual

def eqOf (a b : Json) : Decidable (a = b) :=
  match a with
  | .null => by
      cases b
      case null => exact .isTrue rfl
      all_goals exact .isFalse Json.noConfusion
  | .bool _ => by
      cases b
      case bool => exact decidable_of_iff _ (Json.bool.injEq ..).symm.to_iff
      all_goals exact .isFalse Json.noConfusion
  | .whole _ => by
      cases b
      case whole => exact decidable_of_iff _ (Json.whole.injEq ..).symm.to_iff
      all_goals exact .isFalse Json.noConfusion
  | .real _ => by
      cases b
      case real => exact decidable_of_iff _ (Json.real.injEq ..).symm.to_iff
      all_goals exact .isFalse Json.noConfusion
  | .string _ => by
      cases b
      case string => exact decidable_of_iff _ (Json.string.injEq ..).symm.to_iff
      all_goals exact .isFalse Json.noConfusion
  | .list items => by
      cases b
      case list others =>
        exact @decidable_of_iff _ _ (Json.list.injEq ..).symm.to_iff (itemsEqOf items others)
      all_goals exact .isFalse Json.noConfusion
  | .object members => by
      cases b
      case object others =>
        exact @decidable_of_iff _ _ (Json.object.injEq ..).symm.to_iff (membersEqOf members others)
      all_goals exact .isFalse Json.noConfusion

def itemsEqOf (as bs : List Json) : Decidable (as = bs) :=
  match as, bs with
  | [], [] => .isTrue rfl
  | [], _ :: _ => .isFalse (by simp)
  | _ :: _, [] => .isFalse (by simp)
  | a :: as, b :: bs =>
      @decidable_of_iff _ _ (List.cons.injEq ..).symm.to_iff
        (@instDecidableAnd _ _ (eqOf a b) (itemsEqOf as bs))

def membersEqOf (as bs : List (String × Json)) : Decidable (as = bs) :=
  match as, bs with
  | [], [] => .isTrue rfl
  | [], _ :: _ => .isFalse (by simp)
  | _ :: _, [] => .isFalse (by simp)
  | (k, a) :: as, (l, b) :: bs =>
      @decidable_of_iff _ (k = l ∧ a = b ∧ as = bs) (by simp [and_assoc])
        (@instDecidableAnd _ _ _ (@instDecidableAnd _ _ (eqOf a b) (membersEqOf as bs)))

end

instance : DecidableEq Json :=
  eqOf

mutual

/-- One tree for all that are equal by value: the two zeros are the same number, and the order of
members is that of their keys. -/
def byValue : Json → Json
  | .real value => .real value.unsignedZero
  | .list items => .list (itemsByValue items)
  | .object members => .object (Dict.ofList (membersByValue members)).entries
  | other => other

def itemsByValue : List Json → List Json
  | [] => []
  | item :: rest => item.byValue :: itemsByValue rest

def membersByValue : List (String × Json) → List (String × Json)
  | [] => []
  | (key, value) :: rest => (key, value.byValue) :: membersByValue rest

end

variable {α : Type}

def string? : Json → Option String
  | .string value => some value
  | _ => none

def int? : Json → Option Int
  | .whole value => some value
  | _ => none

def bool? : Json → Option Bool
  | .bool value => some value
  | _ => none

def list? (read : Json → Option α) : Json → Option (List α)
  | .list items => items.mapM read
  | _ => none

def dict? (read : Json → Option α) : Json → Option (Dict α)
  | .object members =>
      (members.mapM fun entry => (read entry.2).map fun value => (entry.1, value)).map Dict.ofList
  | _ => none

def texts? : Json → Option (List String) :=
  list? string?

def textDict? : Json → Option (Dict String) :=
  dict? string?

/-- A member of an object, null standing for an absent one. -/
def member? (j : Json) (key : String) : Option Json :=
  match j with
  | .object members =>
      match members.lookup key with
      | some .null => none
      | found => found
  | _ => none

/-- A member that may be absent but is not read wrong. -/
def optional (j : Json) (key : String) (read : Json → Option α) : Option (Option α) :=
  match j.member? key with
  | none => some none
  | some value => (read value).map some

def withDefault (j : Json) (key : String) (read : Json → Option α) (fallback : α) : Option α :=
  (j.optional key read).map fun found => found.getD fallback

def required (j : Json) (key : String) (read : Json → Option α) : Option α :=
  (j.member? key).bind read

def nat (n : Nat) : Json :=
  .whole n

def texts (items : List String) : Json :=
  .list (items.map .string)

def ofDict (write : α → Json) (d : Dict α) : Json :=
  .object (d.entries.map fun entry => (entry.1, write entry.2))

def textDict : Dict String → Json :=
  ofDict .string

def orNull (write : α → Json) : Option α → Json
  | none => .null
  | some value => write value

def sparse (members : List (String × Option Json)) : Json :=
  .object (members.filterMap fun entry => entry.2.map fun value => (entry.1, value))

def member (key : String) (value : Json) : String × Option Json :=
  (key, some value)

def maybe (key : String) (write : α → Json) (value : Option α) : String × Option Json :=
  (key, value.map write)

end Json

end TunnelFleet
