namespace TunnelFleet.Base64

/-- Why bytes are no base64 text. Offsets count from zero. -/
inductive Fault where
  | badByte (byte : UInt8) (offset : Nat)
  | badLength (length : Nat)
  | badPadding
  | badLastSymbol (byte : UInt8) (offset : Nat)
deriving DecidableEq

def Fault.message : Fault → String
  | .badByte byte offset =>
      "Invalid symbol " ++ toString byte.toNat ++ ", offset " ++ toString offset ++ "."
  | .badLength length => "Invalid input length: " ++ toString length
  | .badPadding => "Invalid padding"
  | .badLastSymbol byte offset =>
      "Invalid last symbol " ++ toString byte.toNat ++ ", offset " ++ toString offset ++ "."

def pad : UInt8 := 61

def value? (b : UInt8) : Option Nat :=
  let n := b.toNat
  if 65 ≤ n ∧ n ≤ 90 then some (n - 65)
  else if 97 ≤ n ∧ n ≤ 122 then some (n - 71)
  else if 48 ≤ n ∧ n ≤ 57 then some (n + 4)
  else if n = 43 then some 62
  else if n = 47 then some 63
  else none

def symbol (value : Nat) : UInt8 :=
  if value < 26 then UInt8.ofNat (value + 65)
  else if value < 52 then UInt8.ofNat (value + 71)
  else if value < 62 then UInt8.ofNat (value - 4)
  else if value = 62 then 43
  else 47

/-- Three bytes for each four symbols; of two or three symbols only whole bytes count. -/
def bytesOf : List Nat → List UInt8
  | a :: b :: c :: d :: rest =>
      UInt8.ofNat (a * 4 + b / 16) :: UInt8.ofNat (b % 16 * 16 + c / 4) ::
        UInt8.ofNat (c % 4 * 64 + d) :: bytesOf rest
  | [a, b, c] => [UInt8.ofNat (a * 4 + b / 16), UInt8.ofNat (b % 16 * 16 + c / 4)]
  | [a, b] => [UInt8.ofNat (a * 4 + b / 16)]
  | _ => []

def symbols (offset : Nat) : List UInt8 → Except Fault (List Nat)
  | [] => .ok []
  | b :: rest =>
      match value? b with
      | none => .error (.badByte b offset)
      | some v => (symbols (offset + 1) rest).map (v :: ·)

/-- The symbols of the last group and the number of padding marks behind them. `padded` is how many
marks came before the byte at hand. -/
def lastGroup (offset : Nat) : Nat → Nat → List UInt8 → Except Fault (List Nat × Nat)
  | _, padded, [] => .ok ([], padded)
  | index, padded, b :: rest =>
      if b = pad then
        if index < 2 then .error (.badByte pad (offset + index))
        else lastGroup offset (index + 1) (padded + 1) rest
      else if 0 < padded then .error (.badByte pad (offset + index - padded))
      else
        match value? b with
        | none => .error (.badByte b (offset + index))
        | some v => (lastGroup offset (index + 1) padded rest).map fun group =>
            (v :: group.1, group.2)

def unusedBits : List Nat → Nat
  | [_, b] => b % 16
  | [_, _, c] => c % 4
  | _ => 0

/-- Reads padded base64. A byte left over behind whole groups is looked at first. -/
def decode (bytes : List UInt8) : Except Fault (List UInt8) :=
  let n := bytes.length
  let last := bytes.getLast?.getD pad
  if n % 4 = 1 ∧ last ≠ pad ∧ value? last = none then .error (.badByte last (n - 1))
  else
    let start := (n - 1) / 4 * 4
    match symbols 0 (bytes.take start) with
    | .error fault => .error fault
    | .ok whole =>
        match lastGroup start 0 0 (bytes.drop start) with
        | .error fault => .error fault
        | .ok (group, padded) =>
            if 0 < n ∧ group.length < 2 then .error (.badLength (start + group.length))
            else if (group.length + padded) % 4 ≠ 0 then .error .badPadding
            else if unusedBits group ≠ 0 then
              .error (.badLastSymbol ((bytes[start + group.length - 1]?).getD pad)
                (start + group.length - 1))
            else .ok (bytesOf (whole ++ group))

def encode : List UInt8 → List UInt8
  | a :: b :: c :: rest =>
      symbol (a.toNat / 4) :: symbol (a.toNat % 4 * 16 + b.toNat / 16) ::
        symbol (b.toNat % 16 * 4 + c.toNat / 64) :: symbol (c.toNat % 64) :: encode rest
  | [a, b] =>
      [symbol (a.toNat / 4), symbol (a.toNat % 4 * 16 + b.toNat / 16),
        symbol (b.toNat % 16 * 4), pad]
  | [a] => [symbol (a.toNat / 4), symbol (a.toNat % 4 * 16), pad, pad]
  | [] => []

def text (bytes : List UInt8) : String :=
  String.ofList ((encode bytes).map fun b => Char.ofNat b.toNat)

end TunnelFleet.Base64
