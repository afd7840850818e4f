import TunnelFleet.Decimal.Unsigned

namespace TunnelFleet.Decimal

/-- A text that spells a number: digits with any number of leading zeros, perhaps after a plus
sign. -/
def Spells (s : String) (n : Nat) : Prop :=
  ∃ digits, digits ≠ [] ∧ (s.toList = digits ∨ s.toList = '+' :: digits) ∧
    (∀ c ∈ digits, c.isDigit = true) ∧ Nat.ofDigitChars 10 digits 0 = n

theorem digitValue?_eq (c : Char) :
    digitValue? c = if c.isDigit then some (c.toNat - '0'.toNat) else none := by
  simp only [digitValue?, Char.isDigit, Bool.and_eq_true, decide_eq_true_eq]
  rfl

theorem digitsFrom?_eq_some_iff {acc n : Nat} {cs : List Char} :
    digitsFrom? acc cs = some n ↔
      (∀ c ∈ cs, c.isDigit = true) ∧ Nat.ofDigitChars 10 cs acc = n := by
  induction cs generalizing acc with
  | nil => simp [digitsFrom?, Nat.ofDigitChars]
  | cons c cs ih =>
    rw [digitsFrom?, digitValue?_eq, List.forall_mem_cons, Nat.ofDigitChars_cons]
    split
    next hdigit => rw [Option.bind_some, ih, and_assoc, and_iff_right hdigit]
    next hdigit =>
      rw [Option.bind_none]
      exact ⟨nofun, fun h => (hdigit h.1.1).elim⟩

theorem digits?_eq_some_iff {n : Nat} {cs : List Char} : digits? cs = some n ↔
    cs ≠ [] ∧ (∀ c ∈ cs, c.isDigit = true) ∧ Nat.ofDigitChars 10 cs 0 = n := by
  cases cs with
  | nil => simp [digits?]
  | cons c cs => rw [digits?, digitsFrom?_eq_some_iff, and_iff_right (List.cons_ne_nil c cs)]

theorem unsigned?_eq_some_iff {limit n : Nat} {s : String} :
    unsigned? limit s = some n ↔ Spells s n ∧ n ≤ limit := by
  rw [unsigned?, Option.filter_eq_some_iff, decide_eq_true_eq]
  refine and_congr_left fun _ => ?_
  split
  next cs heq =>
    rw [digits?_eq_some_iff]
    constructor
    · rintro ⟨hne, hdigits, hvalue⟩
      exact ⟨cs, hne, .inr heq, hdigits, hvalue⟩
    · rintro ⟨digits, hne, htext, hdigits, hvalue⟩
      rw [heq] at htext
      rcases htext with rfl | hcons
      · cases hdigits '+' List.mem_cons_self
      · obtain ⟨-, rfl⟩ := List.cons.inj hcons
        exact ⟨hne, hdigits, hvalue⟩
  next hplus =>
    rw [digits?_eq_some_iff]
    constructor
    · rintro ⟨hne, hdigits, hvalue⟩
      exact ⟨_, hne, .inl rfl, hdigits, hvalue⟩
    · rintro ⟨digits, hne, rfl | hcons, hdigits, hvalue⟩
      · exact ⟨hne, hdigits, hvalue⟩
      · exact (hplus digits hcons).elim

theorem spells_toDigits (n : Nat) : Spells (String.ofList (Nat.toDigits 10 n)) n := by
  refine ⟨Nat.toDigits 10 n, ?_, .inl (String.toList_ofList), fun c hc => ?_, ?_⟩
  · exact Nat.toDigits_ne_nil
  · exact Nat.isDigit_of_mem_toDigits (by decide) (by decide) hc
  · exact Nat.ofDigitChars_toDigits (by decide) (by decide)

end TunnelFleet.Decimal
