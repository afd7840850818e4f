import TunnelFleet.Address.Basic

namespace TunnelFleet

/-- A block of addresses: an address as it was written, host bits and all, with a mask length. -/
structure Block where
  address : Address
  len : Nat
  len_le : len ≤ 32
deriving DecidableEq

def topAddress : Nat :=
  4294967295

/-- How many addresses share the bits under a mask of some length: all that the other bits can
tell apart. -/
def span (len : Nat) : Nat :=
  (topAddress >>> len) + 1

theorem span_pos (len : Nat) : 0 < span len :=
  Nat.succ_pos _

theorem span_dvd_span : ∀ {n : Nat}, n ≤ 32 → ∀ {len : Nat}, len ≤ n → span n ∣ span len := by
  decide +kernel

namespace Block

def size (b : Block) : Nat :=
  span b.len

theorem size_pos (b : Block) : 0 < b.size :=
  span_pos b.len

theorem size_dvd (b : Block) : b.size ∣ 4294967296 :=
  span_dvd_span b.len_le (Nat.zero_le _)

theorem aligned_add_size_le {n : Nat} (b : Block) (h : n < 4294967296) :
    n / b.size * b.size + b.size ≤ 4294967296 := by
  obtain ⟨blocks, hsplit⟩ := b.size_dvd
  have hdiv : n / b.size < blocks :=
    Nat.div_lt_of_lt_mul (by rw [← hsplit]; exact h)
  calc n / b.size * b.size + b.size = (n / b.size + 1) * b.size := by
        rw [Nat.add_mul, Nat.one_mul]
    _ ≤ blocks * b.size := Nat.mul_le_mul_right _ hdiv
    _ = 4294967296 := by rw [hsplit, Nat.mul_comm]

def network (b : Block) : Address where
  val := b.address.val / b.size * b.size
  lt := Nat.lt_of_le_of_lt (Nat.div_mul_le_self _ _) b.address.lt

def broadcast (b : Block) : Address where
  val := b.network.val + (b.size - 1)
  lt := by
    have hle := b.aligned_add_size_le b.address.lt
    have hpos := b.size_pos
    simp only [network]
    omega

/-- An address lies in the block when it agrees with the written one above the mask. -/
def contains (b : Block) (a : Address) : Bool :=
  a.val / b.size == b.address.val / b.size

/-- Whether two blocks meet. Both are aligned, so one of them then holds the other's lowest
address. -/
def overlaps (a b : Block) : Bool :=
  a.contains b.network || b.contains a.network

def chars (b : Block) : List Char :=
  b.address.chars ++ '/' :: Nat.toDigits 10 b.len

def text (b : Block) : String :=
  String.ofList b.chars

end Block

inductive BlockError where
  | manySlashes (whole : String)
  | badAddress (part : String)
  | badMask
deriving DecidableEq

def BlockError.message : BlockError → String
  | .manySlashes whole => "invalid cidr format: CIDR must contain a single '/': " ++ whole
  | .badAddress part => "invalid address: " ++ part
  | .badMask => "invalid prefix"

namespace Block

def maskLength? (mask : Address) : Option Nat :=
  (List.range 33).find? fun len => mask.val + span len == 4294967296

def mask? (cs : List Char) : Option Nat :=
  match Address.ofChars? cs with
  | some mask => maskLength? mask
  | none => Decimal.unsigned? 255 (String.ofList cs)

def make (address : List Char) (len : Option Nat) : Except BlockError Block :=
  match Address.ofChars? address with
  | none => .error (.badAddress (String.ofList address))
  | some a =>
      match len with
      | none => .error .badMask
      | some n => if h : n ≤ 32 then .ok ⟨a, n, h⟩ else .error .badMask

/-- Reads an address with an optional mask after one slash; without a mask the block is the
address alone. -/
def ofText (s : String) : Except BlockError Block :=
  match Text.splitAt '/' s.toList with
  | [address] => make address (some 32)
  | [address, mask] => make address (mask? mask)
  | _ => .error (.manySlashes s)

end Block

end TunnelFleet
