import Mathlib.Tactic.Ring
import TunnelFleet.Proofs.Key.Base64
import TunnelFleet.Proofs.Key.Curve
import TunnelFleet.Proofs.Key.Identity
import TunnelFleet.Proofs.Text.Trim

namespace TunnelFleet

namespace Base64

theorem eq_symbol_or_pad_of_mem_encode {bytes : List UInt8} {b : UInt8} (h : b ∈ encode bytes) :
    (∃ v < 64, b = symbol v) ∨ b = pad := by
  have hbytes : bytes ≠ [] := by
    rintro rfl
    cases h
  obtain ⟨whole, group, marks, hgrouped, -⟩ := exists_isGrouped_encode hbytes
  rw [hgrouped.text, ← List.append_assoc, ← List.map_append] at h
  rcases List.mem_append.mp h with h | h
  · obtain ⟨v, hv, rfl⟩ := List.mem_map.mp h
    exact .inl ⟨v, areValues_append.mpr ⟨hgrouped.wholeValues, hgrouped.groupValues⟩ v hv, rfl⟩
  · exact .inr (List.eq_of_mem_replicate h)

theorem lt_of_mem_encode {bytes : List UInt8} {b : UInt8} (h : b ∈ encode bytes) : b.toNat < 128 := by
  have hsymbol : ∀ v : Fin 64, (symbol v).toNat < 128 := by decide
  rcases eq_symbol_or_pad_of_mem_encode h with ⟨v, hv, rfl⟩ | rfl
  · exact hsymbol ⟨v, hv⟩
  · decide

theorem isBlank_of_mem_text {bytes : List UInt8} {c : Char} (h : c ∈ (text bytes).toList) :
    Text.isBlank c = false := by
  have hsymbol : ∀ v : Fin 64, Text.isBlank (Char.ofNat (symbol v).toNat) = false := by decide
  rw [text, String.toList_ofList] at h
  obtain ⟨b, hb, rfl⟩ := List.mem_map.mp h
  rcases eq_symbol_or_pad_of_mem_encode hb with ⟨v, hv, rfl⟩ | rfl
  · exact hsymbol ⟨v, hv⟩
  · decide

theorem length_encode (bytes : List UInt8) :
    (encode bytes).length = (bytes.length + 2) / 3 * 4 := by
  induction bytes using encode.induct with
  | case1 a b c rest ih =>
    simp only [encode, List.length_cons, ih]
    omega
  | case2 a b => simp [encode]
  | case3 a => simp [encode]
  | case4 => rfl

theorem length_text (bytes : List UInt8) : (text bytes).length = (bytes.length + 2) / 3 * 4 := by
  rw [text, String.length_ofList, List.length_map, length_encode]

end Base64

namespace Identity

theorem utf8_injective {cs ds : List Char} (h : utf8 cs = utf8 ds) : cs = ds := by
  have hbytes : cs.utf8Encode = ds.utf8Encode := congrArg List.toByteArray h
  have hdecode := congrArg ByteArray.utf8Decode? hbytes
  rw [List.utf8Decode?_utf8Encode, List.utf8Decode?_utf8Encode] at hdecode
  simpa using hdecode

theorem utf8_map_ofNat {bytes : List UInt8} (h : ∀ b ∈ bytes, b.toNat < 128) :
    utf8 (bytes.map fun b => Char.ofNat b.toNat) = bytes := by
  induction bytes with
  | nil => rfl
  | cons b rest ih =>
    obtain ⟨hb, hrest⟩ := List.forall_mem_cons.mp h
    have hchar : ∀ n : Fin 128, String.utf8EncodeChar (Char.ofNat n) = [UInt8.ofNat n] := by decide
    have hhead := hchar ⟨b.toNat, hb⟩
    rw [UInt8.ofNat_toNat] at hhead
    rw [utf8, List.map_cons, List.flatMap_cons, hhead, ← utf8, ih hrest]
    rfl

theorem decode_utf8_eq_ok_iff {cs : List Char} {bytes : List UInt8} :
    Base64.decode (utf8 cs) = .ok bytes ↔ String.ofList cs = Base64.text bytes := by
  have hutf8 : utf8 ((Base64.encode bytes).map fun b => Char.ofNat b.toNat) = Base64.encode bytes :=
    utf8_map_ofNat fun _ => Base64.lt_of_mem_encode
  rw [Base64.decode_eq_ok_iff, Base64.text, String.ofList_inj]
  exact ⟨fun h => utf8_injective (h.trans hutf8.symm), fun h => h ▸ hutf8⟩

end Identity

namespace Curve

/-- Clears the three lowest bits and the highest of 32 bytes, and sets the one below that. -/
def clampBytes (bytes : List UInt8) : List UInt8 :=
  (bytes.modify 0 fun b => b &&& 248).modify 31 fun b => b &&& 127 ||| 64

theorem ofBytes_append (front back : List UInt8) :
    ofBytes (front ++ back) = ofBytes front + 256 ^ front.length * ofBytes back := by
  induction front with
  | nil => simp [ofBytes]
  | cons b rest ih =>
    rw [List.cons_append, ofBytes, ofBytes, ih, List.length_cons, Nat.pow_succ]
    ring

theorem ofBytes_lt (bytes : List UInt8) : ofBytes bytes < 256 ^ bytes.length := by
  induction bytes with
  | nil => exact Nat.one_pos
  | cons b rest ih =>
    have hb := b.toNat_lt
    rw [ofBytes, List.length_cons, Nat.pow_succ]
    omega

theorem length_toBytes (count n : Nat) : (toBytes count n).length = count := by
  induction count generalizing n with
  | zero => rfl
  | succ count ih => rw [toBytes, List.length_cons, ih]

theorem ofBytes_toBytes {count n : Nat} (h : n < 256 ^ count) : ofBytes (toBytes count n) = n := by
  induction count generalizing n with
  | zero => exact (Nat.lt_one_iff.mp h).symm
  | succ count ih =>
    have hrest : n / 256 < 256 ^ count := Nat.div_lt_of_lt_mul (by rwa [Nat.mul_comm, ← Nat.pow_succ])
    rw [toBytes, ofBytes, ih hrest, UInt8.toNat_ofNat']
    omega

theorem ofBytes_publicKey (secret : List UInt8) :
    ofBytes (publicKey secret) = multiple (clamp (ofBytes secret)) 9 :=
  ofBytes_toBytes (Nat.lt_trans (multiple_lt _ _) (by decide))

theorem modify_concat (front : List UInt8) (last : UInt8) (f : UInt8 → UInt8) :
    (front ++ [last]).modify front.length f = front ++ [f last] := by
  induction front with
  | nil => rfl
  | cons b rest ih =>
    rw [List.cons_append, List.length_cons, List.modify_succ_cons, ih, List.cons_append]

theorem clampBytes_cons_concat (first last : UInt8) {middle : List UInt8}
    (h : middle.length = 30) : clampBytes (first :: (middle ++ [last])) =
      (first &&& 248) :: (middle ++ [last &&& 127 ||| 64]) := by
  rw [clampBytes, List.modify_zero_cons, List.modify_succ_cons, ← h, modify_concat]

theorem toNat_and_248 (b : UInt8) : (b &&& 248).toNat = b.toNat / 8 * 8 := by
  have hall : ∀ n : Fin 256, (UInt8.ofNat n &&& 248).toNat = n.val / 8 * 8 := by decide +kernel
  have hb := hall ⟨b.toNat, b.toNat_lt⟩
  rwa [UInt8.ofNat_toNat] at hb

theorem toNat_and_127_or_64 (b : UInt8) : (b &&& 127 ||| 64).toNat = b.toNat % 64 + 64 := by
  have hall : ∀ n : Fin 256, (UInt8.ofNat n &&& 127 ||| 64).toNat = n.val % 64 + 64 := by
    decide +kernel
  have hb := hall ⟨b.toNat, b.toNat_lt⟩
  rwa [UInt8.ofNat_toNat] at hb

/-- What clamping does to a number it does to the first and the last of its bytes. -/
theorem clamp_ofBytes {bytes : List UInt8} (h : bytes.length = 32) :
    clamp (ofBytes bytes) = ofBytes (clampBytes bytes) := by
  obtain ⟨first, rest, rfl⟩ := List.exists_cons_of_length_eq_add_one h
  have hrest : rest ≠ [] := by
    rintro rfl
    cases h
  obtain ⟨middle, last, rfl⟩ : ∃ middle last, rest = middle ++ [last] :=
    ⟨_, _, (List.dropLast_append_getLast hrest).symm⟩
  have hmiddle : middle.length = 30 := by simpa using h
  have hlt := ofBytes_lt middle
  have hfirst := first.toNat_lt
  rw [clampBytes_cons_concat first last hmiddle, clamp]
  simp only [ofBytes, ofBytes_append, hmiddle, toNat_and_248, toNat_and_127_or_64] at hlt ⊢
  have htop : 1 <<< 254 = 2 ^ 254 := rfl
  rw [htop]
  omega

end Curve

namespace Identity

/-- The bytes of a private key, if its text is one: up to white space around it, the one way to write
32 bytes. -/
structure IsSecret (secret : String) (bytes : List UInt8) : Prop where
  text : String.ofList (Text.trim secret.toList) = Base64.text bytes
  length : bytes.length = 32

theorem isSecret_iff {secret : String} {bytes : List UInt8} : IsSecret secret bytes ↔
    bytes.length = 32 ∧ ∃ front back, secret.toList = front ++ (Base64.text bytes).toList ++ back ∧
      (∀ c ∈ front, Text.isBlank c = true) ∧ ∀ c ∈ back, Text.isBlank c = true := by
  constructor
  · rintro ⟨htext, hlength⟩
    obtain ⟨front, back, hsecret, hblanks⟩ := Text.exists_append_trim secret.toList
    rw [← htext, String.toList_ofList]
    exact ⟨hlength, front, back, hsecret, hblanks⟩
  · rintro ⟨hlength, front, back, hsecret, hfront, hback⟩
    have htrimmed : Text.IsTrimmed (Base64.text bytes).toList :=
      ⟨fun c hc => Base64.isBlank_of_mem_text (List.mem_of_mem_head? hc),
        fun c hc => Base64.isBlank_of_mem_text (List.mem_of_mem_getLast? hc)⟩
    refine ⟨?_, hlength⟩
    rw [hsecret, Text.trim_append htrimmed hfront hback, String.ofList_toList]

theorem publicKey_eq_ok_iff_isSecret {secret key : String} : publicKey secret = .ok key ↔
    ∃ bytes, IsSecret secret bytes ∧ Base64.text (Curve.publicKey bytes) = key := by
  rw [publicKey_eq_ok_iff]
  refine exists_congr fun bytes => ?_
  rw [decode_utf8_eq_ok_iff, ← and_assoc]
  exact and_congr_left fun _ => ⟨fun h => ⟨h.1, h.2⟩, fun h => ⟨h.text, h.length⟩⟩

/-- A private key is accepted if and only if its text is the one way to write some 32 bytes. The public
key is then the multiple of the base point by the clamped bytes, written with 44 characters. Any other
text is no base64, or base64 of another number of bytes. -/
theorem secrets_are_canonical (secret : String) :
    (∀ key, publicKey secret = .ok key ↔
      ∃ bytes, IsSecret secret bytes ∧ key.length = 44 ∧ key = Base64.text (Curve.toBytes 32
        (Curve.multiple (Curve.ofBytes (Curve.clampBytes bytes)) 9))) ∧
    ((∃ bytes, IsSecret secret bytes) ∨
      (∃ fault, publicKey secret = .error (.notBase64 fault)) ∨
      ∃ length, length ≠ 32 ∧ publicKey secret = .error (.wrongLength length)) := by
  constructor
  · intro key
    rw [publicKey_eq_ok_iff_isSecret]
    refine exists_congr fun bytes => and_congr_right fun hbytes => ?_
    have hlength : (Base64.text (Curve.publicKey bytes)).length = 44 := by
      rw [Base64.length_text, Curve.publicKey, Curve.length_toBytes]
    rw [← Curve.clamp_ofBytes hbytes.length, ← Curve.publicKey]
    exact ⟨fun h => ⟨h ▸ hlength, h.symm⟩, fun h => h.2.symm⟩
  · unfold publicKey
    split
    next fault _ => exact .inr (.inl ⟨fault, rfl⟩)
    next bytes hdecode =>
      split
      next hlength => exact .inr (.inr ⟨bytes.length, hlength, rfl⟩)
      next hlength =>
        exact .inl ⟨bytes, decode_utf8_eq_ok_iff.mp hdecode, not_not.mp hlength⟩

example : (publicKey "yAnz5TF+lXXJte14tji3zlMNq+hd2rYUIgJBgB3fBmk=").toOption =
    some "HIgo9xNzJMWLKASShiTqIybxZ0U3wGLiUeJ1PKf8ykw=" := by decide +kernel

end Identity

end TunnelFleet
