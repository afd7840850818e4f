import TunnelFleet.Address.Block
import TunnelFleet.Proofs.Reading
import TunnelFleet.Proofs.Text.Split

namespace TunnelFleet

theorem not_mem_toDigits {c : Char} (n : Nat) (h : c.isDigit = false) : c ∉ Nat.toDigits 10 n := by
  intro hc
  rw [Nat.isDigit_of_mem_toDigits (by decide) (by decide) hc] at h
  cases h

namespace Address

theorem octet?_toDigits : ∀ {n : Nat}, n < 256 → octet? (Nat.toDigits 10 n) = some n := by
  decide +kernel

theorem octets_lt (a : Address) : ∀ n ∈ a.octets, n < 256 := by
  have hlt := a.lt
  intro n hn
  simp only [octets, List.mem_cons, List.not_mem_nil, or_false] at hn
  omega

theorem ofOctets?_octets (a : Address) : ofOctets? a.octets = some a := by
  have hval : ((a.val / 16777216 * 256 + a.val / 65536 % 256) * 256 + a.val / 256 % 256) * 256 +
      a.val % 256 = a.val := by omega
  simp only [ofOctets?, octets, hval, a.lt, dite_true]

theorem splitAt_chars (a : Address) :
    Text.splitAt '.' a.chars = a.octets.map (Nat.toDigits 10) := by
  have hdot : ∀ n, '.' ∉ Nat.toDigits 10 n := fun n => not_mem_toDigits n (by decide)
  simp only [chars, octets, List.map_cons, List.map_nil, List.intersperse_cons_cons,
    List.intersperse_singleton, List.flatten_cons, List.flatten_nil, List.append_nil,
    List.cons_append, List.nil_append]
  rw [Text.splitAt_append_cons _ (hdot _), Text.splitAt_append_cons _ (hdot _),
    Text.splitAt_append_cons _ (hdot _), Text.splitAt_of_not_mem (hdot _)]

theorem mapM_octet?_toDigits {ns : List Nat} (h : ∀ n ∈ ns, n < 256) :
    (ns.map (Nat.toDigits 10)).mapM octet? = some ns := by
  induction ns with
  | nil => rfl
  | cons n ns ih =>
    obtain ⟨hn, hns⟩ := List.forall_mem_cons.mp h
    rw [List.map_cons, List.mapM_cons, octet?_toDigits hn, ih hns]
    rfl

theorem ofChars?_chars (a : Address) : ofChars? a.chars = some a := by
  rw [ofChars?, splitAt_chars, mapM_octet?_toDigits a.octets_lt, Option.bind_some, ofOctets?_octets]

end Address

namespace Decimal

theorem isDigit_of_digitValue? {c : Char} {d : Nat} (h : digitValue? c = some d) :
    c.isDigit = true := by
  simp only [digitValue?, Option.ite_none_right_eq_some] at h
  obtain ⟨⟨hlow, hhigh⟩, -⟩ := h
  simp only [Char.isDigit, Bool.and_eq_true, decide_eq_true_eq]
  exact ⟨hlow, hhigh⟩

theorem isDigit_of_digitsFrom? {cs : List Char} {acc n : Nat} (h : digitsFrom? acc cs = some n) :
    ∀ c ∈ cs, c.isDigit = true := by
  induction cs generalizing acc with
  | nil => simp
  | cons c cs ih =>
    obtain ⟨d, hd, hrest⟩ := Option.bind_eq_some_iff.mp h
    exact List.forall_mem_cons.mpr ⟨isDigit_of_digitValue? hd, ih hrest⟩

theorem isDigit_of_digits? {cs : List Char} {n : Nat} (h : digits? cs = some n) :
    ∀ c ∈ cs, c.isDigit = true := by
  cases cs with
  | nil => simp
  | cons c cs => exact isDigit_of_digitsFrom? h

theorem isDigit_of_unsigned? {limit n : Nat} {s : String} (h : unsigned? limit s = some n) :
    ∀ c ∈ s.toList, c.isDigit = true ∨ c = '+' := by
  obtain ⟨hdigits, -⟩ := Option.filter_eq_some_iff.mp h
  intro c hc
  split at hdigits
  next cs heq =>
    rw [heq] at hc
    exact (List.mem_cons.mp hc).symm.imp (isDigit_of_digits? hdigits c) id
  next => exact .inl (isDigit_of_digits? hdigits c hc)

end Decimal

def Block.IsTextChar (c : Char) : Prop :=
  c.isDigit = true ∨ c = '.' ∨ c = '/' ∨ c = '+'

namespace Address

theorem isDigit_of_octet? {cs : List Char} {n : Nat} (h : octet? cs = some n) :
    ∀ c ∈ cs, c.isDigit = true := by
  simp only [octet?, Option.ite_none_right_eq_some, Option.filter_eq_some_iff] at h
  exact Decimal.isDigit_of_digits? h.2.1

theorem isDigit_or_dot_of_ofChars? {cs : List Char} {a : Address} (h : ofChars? cs = some a) :
    ∀ c ∈ cs, c.isDigit = true ∨ c = '.' := by
  obtain ⟨octets, hoctets, -⟩ := Option.bind_eq_some_iff.mp h
  intro c hc
  rcases Text.mem_of_mem_splitAt '.' hc with hdot | ⟨piece, hpiece, hc⟩
  · exact .inr hdot
  · obtain ⟨n, -, hn⟩ := exists_of_mapM_eq_some hoctets hpiece
    exact .inl (isDigit_of_octet? hn c hc)

theorem not_mem_chars {c : Char} (a : Address) (hdigit : c.isDigit = false) (hdot : c ≠ '.') :
    c ∉ a.chars := by
  intro hc
  rcases isDigit_or_dot_of_ofChars? a.ofChars?_chars c hc with h | h
  · rw [h] at hdigit
    cases hdigit
  · exact hdot h

end Address

namespace Block

theorem make_eq_ok {address : List Char} {len : Option Nat} {b : Block}
    (h : make address len = .ok b) :
    Address.ofChars? address = some b.address ∧ len = some b.len := by
  unfold make at h
  split at h
  next => cases h
  next a ha =>
    split at h
    next => cases h
    next n =>
      split at h
      next hn =>
        obtain rfl := Except.ok.inj h
        exact ⟨ha, rfl⟩
      next => cases h

theorem make_chars (a : Address) {len : Nat} (h : len ≤ 32) :
    make a.chars (some len) = .ok ⟨a, len, h⟩ := by
  simp only [make, a.ofChars?_chars, h, dite_true]

theorem mask?_toDigits : ∀ {n : Nat}, n ≤ 32 → mask? (Nat.toDigits 10 n) = some n := by
  decide +kernel

theorem isTextChar_of_mask? {cs : List Char} {n : Nat} (h : mask? cs = some n) :
    ∀ c ∈ cs, IsTextChar c := by
  intro c hc
  unfold mask? at h
  split at h
  next mask hmask =>
    exact (Address.isDigit_or_dot_of_ofChars? hmask c hc).imp id .inl
  next =>
    have hc' := Decimal.isDigit_of_unsigned? h c (by rwa [String.toList_ofList])
    exact hc'.imp id fun hplus => .inr (.inr hplus)

theorem ofText_text_address (a : Address) : ofText a.text = .ok ⟨a, 32, Nat.le_refl 32⟩ := by
  have hslash : '/' ∉ a.chars := a.not_mem_chars (by decide) (by decide)
  rw [ofText, Address.text, String.toList_ofList, Text.splitAt_of_not_mem hslash]
  exact make_chars a _

theorem ofText_address_text {b : Block} (h : b.len = 32) : ofText b.address.text = .ok b := by
  cases b
  cases h
  exact ofText_text_address _

theorem ofText_text (b : Block) : ofText b.text = .ok b := by
  have hslash : '/' ∉ b.address.chars := b.address.not_mem_chars (by decide) (by decide)
  have hmask : '/' ∉ Nat.toDigits 10 b.len := not_mem_toDigits b.len (by decide)
  rw [ofText, text, String.toList_ofList, chars, Text.splitAt_append_cons _ hslash,
    Text.splitAt_of_not_mem hmask]
  simp only [mask?_toDigits b.len_le]
  exact make_chars b.address b.len_le

theorem isTextChar_of_ofText {s : String} {b : Block} (h : ofText s = .ok b) :
    ∀ c ∈ s.toList, IsTextChar c := by
  intro c hc
  rcases Text.mem_of_mem_splitAt '/' hc with hslash | ⟨piece, hpiece, hc⟩
  · exact .inr (.inr (.inl hslash))
  · unfold ofText at h
    split at h
    next address heq =>
      rw [heq, List.mem_singleton] at hpiece
      subst piece
      exact (Address.isDigit_or_dot_of_ofChars? (make_eq_ok h).1 c hc).imp id .inl
    next address mask heq =>
      rw [heq, List.mem_cons, List.mem_singleton] at hpiece
      rcases hpiece with rfl | rfl
      · exact (Address.isDigit_or_dot_of_ofChars? (make_eq_ok h).1 c hc).imp id .inl
      · exact isTextChar_of_mask? (make_eq_ok h).2 c hc
    next => cases h

theorem not_mem_of_ofText {s : String} {b : Block} {c : Char} (h : ofText s = .ok b)
    (hc : ¬ IsTextChar c) : c ∉ s.toList :=
  fun hm => hc (isTextChar_of_ofText h c hm)

end Block

end TunnelFleet
