import TunnelFleet.Key.Base64
import TunnelFleet.Proofs.Reading

namespace TunnelFleet.Base64

theorem value?_symbol {v : Nat} (h : v < 64) : value? (symbol v) = some v := by
  have hall : ∀ v : Fin 64, value? (symbol v) = some v.val := by decide
  exact hall ⟨v, h⟩

theorem eq_symbol_of_value? {b : UInt8} {v : Nat} (h : value? b = some v) :
    v < 64 ∧ b = symbol v := by
  have hall : ∀ b : Fin 256, ∀ v ∈ value? (UInt8.ofNat b), v < 64 ∧ UInt8.ofNat b = symbol v := by
    decide +kernel
  have hb := hall ⟨b.toNat, b.toNat_lt⟩ v
  rw [UInt8.ofNat_toNat] at hb
  exact hb h

theorem symbol_ne_pad {v : Nat} (h : v < 64) : symbol v ≠ pad := by
  intro heq
  have hvalue := value?_symbol h
  rw [heq] at hvalue
  cases hvalue

def AreValues (values : List Nat) : Prop :=
  ∀ v ∈ values, v < 64

theorem areValues_cons {v : Nat} {values : List Nat} :
    AreValues (v :: values) ↔ v < 64 ∧ AreValues values :=
  List.forall_mem_cons

theorem areValues_append {front back : List Nat} :
    AreValues (front ++ back) ↔ AreValues front ∧ AreValues back :=
  List.forall_mem_append

section Reading

variable {offset index padded : Nat} {cs : List UInt8} {values : List Nat}

theorem symbols_map (h : AreValues values) (offset : Nat) :
    symbols offset (values.map symbol) = .ok values := by
  induction values generalizing offset with
  | nil => rfl
  | cons v rest ih =>
    obtain ⟨hv, hrest⟩ := areValues_cons.mp h
    rw [List.map_cons, symbols, value?_symbol hv, ih hrest]
    rfl

theorem eq_map_of_symbols (h : symbols offset cs = .ok values) :
    AreValues values ∧ cs = values.map symbol := by
  induction cs generalizing offset values with
  | nil =>
    obtain rfl := Except.ok.inj h
    exact ⟨List.forall_mem_nil _, rfl⟩
  | cons b rest ih =>
    rw [symbols] at h
    split at h
    next => cases h
    next v hv =>
      obtain ⟨others, hothers, rfl⟩ := map_eq_ok_iff.mp h
      obtain ⟨hvalues, rfl⟩ := ih hothers
      obtain ⟨hlt, rfl⟩ := eq_symbol_of_value? hv
      exact ⟨areValues_cons.mpr ⟨hlt, hvalues⟩, rfl⟩

theorem lastGroup_pads (h : 2 ≤ index) (offset padded marks : Nat) :
    lastGroup offset index padded (List.replicate marks pad) = .ok ([], padded + marks) := by
  induction marks generalizing index padded with
  | zero => rfl
  | succ marks ih =>
    rw [List.replicate_succ, lastGroup, if_pos rfl, if_neg (Nat.not_lt.mpr h),
      ih (Nat.le_succ_of_le h), Nat.add_right_comm, Nat.add_assoc]

theorem lastGroup_map (h : AreValues values) {marks : Nat}
    (hmarks : marks = 0 ∨ 2 ≤ index + values.length) (offset : Nat) :
    lastGroup offset index 0 (values.map symbol ++ List.replicate marks pad) =
      .ok (values, marks) := by
  induction values generalizing index with
  | nil =>
    rcases hmarks with rfl | hindex
    · rfl
    · rw [List.map_nil, List.nil_append, lastGroup_pads (by simpa using hindex), Nat.zero_add]
  | cons v rest ih =>
    obtain ⟨hv, hrest⟩ := areValues_cons.mp h
    have hbehind : marks = 0 ∨ 2 ≤ index + 1 + rest.length := by
      rw [List.length_cons] at hmarks
      omega
    rw [List.map_cons, List.cons_append, lastGroup, if_neg (symbol_ne_pad hv),
      if_neg (Nat.lt_irrefl 0), value?_symbol hv]
    simp only [ih hrest hbehind]
    rfl

theorem eq_replicate_of_lastGroup {padded marks : Nat} (hpadded : 0 < padded)
    (h : lastGroup offset index padded cs = .ok (values, marks)) :
    values = [] ∧ ∃ more, marks = padded + more ∧ cs = List.replicate more pad := by
  induction cs generalizing index padded with
  | nil =>
    rw [lastGroup, Except.ok.injEq, Prod.mk.injEq] at h
    exact ⟨h.1.symm, 0, h.2.symm, rfl⟩
  | cons b rest ih =>
    rw [lastGroup] at h
    split at h
    next hb =>
      split at h
      next => cases h
      next =>
        obtain ⟨hvalues, more, hmarks, rfl⟩ := ih (Nat.succ_pos padded) h
        exact ⟨hvalues, more + 1, by omega, by rw [hb, List.replicate_succ]⟩
    next => cases h

theorem eq_map_of_lastGroup {marks : Nat}
    (h : lastGroup offset index 0 cs = .ok (values, marks)) :
    AreValues values ∧ cs = values.map symbol ++ List.replicate marks pad := by
  induction cs generalizing index values with
  | nil =>
    rw [lastGroup, Except.ok.injEq, Prod.mk.injEq] at h
    obtain ⟨rfl, rfl⟩ := h
    exact ⟨List.forall_mem_nil _, rfl⟩
  | cons b rest ih =>
    rw [lastGroup] at h
    split at h
    next hb =>
      split at h
      next => cases h
      next =>
        obtain ⟨rfl, more, hmarks, rfl⟩ := eq_replicate_of_lastGroup (Nat.succ_pos 0) h
        have hmore : marks = more + 1 := by omega
        exact ⟨List.forall_mem_nil _, by rw [hb, hmore, List.replicate_succ]; rfl⟩
    next =>
      rw [if_neg (Nat.lt_irrefl 0)] at h
      split at h
      next => cases h
      next v hv =>
        obtain ⟨⟨others, last⟩, hothers, heq⟩ := map_eq_ok_iff.mp h
        rw [Prod.mk.injEq] at heq
        obtain ⟨rfl, rfl⟩ := heq
        obtain ⟨hvalues, rfl⟩ := ih hothers
        obtain ⟨hlt, rfl⟩ := eq_symbol_of_value? hv
        exact ⟨areValues_cons.mpr ⟨hlt, hvalues⟩, rfl⟩

end Reading

/-- A text of whole groups of symbols and a last group that padding marks may fill up, and in which
no bit is lost. -/
structure IsGrouped (cs : List UInt8) (whole group : List Nat) (marks : Nat) : Prop where
  text : cs = whole.map symbol ++ (group.map symbol ++ List.replicate marks pad)
  wholeValues : AreValues whole
  groupValues : AreValues group
  whole : whole.length % 4 = 0
  full : group.length + marks = 4
  least : 2 ≤ group.length
  unused : unusedBits group = 0

section Grouped

variable {cs bytes : List UInt8} {whole group : List Nat} {marks : Nat}

theorem IsGrouped.decode (h : IsGrouped cs whole group marks) :
    decode cs = .ok (bytesOf (whole ++ group)) := by
  obtain ⟨rfl, hwhole, hgroup, hfour, hfull, hleast, hunused⟩ := h
  have hlength : (whole.map symbol ++ (group.map symbol ++ List.replicate marks pad)).length =
      whole.length + 4 := by
    simp [hfull]
  have hstart : (whole.length + 4 - 1) / 4 * 4 = whole.length := by omega
  have hmap : (whole.map symbol).length = whole.length := List.length_map ..
  have hmod : ¬ (whole.length + 4) % 4 = 1 := by omega
  have hmarks : marks = 0 ∨ 2 ≤ 0 + group.length := by omega
  have hpadding : ¬ (group.length + marks) % 4 ≠ 0 := by omega
  rw [Base64.decode]
  simp only [hlength, hmod, false_and, if_false, hstart, List.take_left' hmap,
    List.drop_left' hmap, symbols_map hwhole, lastGroup_map hgroup hmarks,
    Nat.not_lt.mpr hleast, and_false, hpadding, hunused, ne_eq, not_true_eq_false]

theorem exists_isGrouped_of_decode (hne : cs ≠ []) (h : decode cs = .ok bytes) :
    ∃ whole group marks, IsGrouped cs whole group marks ∧ bytes = bytesOf (whole ++ group) := by
  have hpos := List.length_pos_iff.mpr hne
  rw [Base64.decode] at h
  simp only at h
  split at h
  next => cases h
  next =>
    split at h
    next => cases h
    next whole hwhole =>
      split at h
      next => cases h
      next group marks hgroup =>
        split at h
        next => cases h
        next hleast =>
          split at h
          next => cases h
          next hfull =>
            split at h
            next => cases h
            next hunused =>
              obtain ⟨hwholeValues, htake⟩ := eq_map_of_symbols hwhole
              obtain ⟨hgroupValues, hdrop⟩ := eq_map_of_lastGroup hgroup
              have hstart := congrArg List.length htake
              have hrest := congrArg List.length hdrop
              simp only [List.length_take, List.length_map] at hstart
              simp only [List.length_drop, List.length_append, List.length_map,
                List.length_replicate] at hrest
              refine ⟨whole, group, marks, ⟨?_, hwholeValues, hgroupValues, ?_, ?_, ?_, ?_⟩,
                (Except.ok.inj h).symm⟩
              · rw [← htake, ← hdrop, List.take_append_drop]
              · omega
              · omega
              · omega
              · exact not_not.mp hunused

end Grouped

theorem toNat_ofNat_of_lt {n : Nat} (h : n < 256) : (UInt8.ofNat n).toNat = n := by
  rw [UInt8.toNat_ofNat', Nat.mod_eq_of_lt h]

theorem encode_bytesOf_cons {a b c d : Nat} (rest : List Nat) (ha : a < 64) (hb : b < 64)
    (hc : c < 64) (hd : d < 64) : encode (bytesOf (a :: b :: c :: d :: rest)) =
      [a, b, c, d].map symbol ++ encode (bytesOf rest) := by
  have hfirst := toNat_ofNat_of_lt (show a * 4 + b / 16 < 256 by omega)
  have hsecond := toNat_ofNat_of_lt (show b % 16 * 16 + c / 4 < 256 by omega)
  have hthird := toNat_ofNat_of_lt (show c % 4 * 64 + d < 256 by omega)
  have ha' : (a * 4 + b / 16) / 4 = a := by omega
  have hb' : (a * 4 + b / 16) % 4 * 16 + (b % 16 * 16 + c / 4) / 16 = b := by omega
  have hc' : (b % 16 * 16 + c / 4) % 16 * 4 + (c % 4 * 64 + d) / 64 = c := by omega
  have hd' : (c % 4 * 64 + d) % 64 = d := by omega
  simp only [bytesOf, encode, hfirst, hsecond, hthird, ha', hb', hc', hd', List.map_cons,
    List.map_nil, List.cons_append, List.nil_append]

theorem encode_bytesOf_three {a b c : Nat} (ha : a < 64) (hb : b < 64) (hc : c < 64)
    (hunused : c % 4 = 0) : encode (bytesOf [a, b, c]) = [a, b, c].map symbol ++ [pad] := by
  have hfirst := toNat_ofNat_of_lt (show a * 4 + b / 16 < 256 by omega)
  have hsecond := toNat_ofNat_of_lt (show b % 16 * 16 + c / 4 < 256 by omega)
  have ha' : (a * 4 + b / 16) / 4 = a := by omega
  have hb' : (a * 4 + b / 16) % 4 * 16 + (b % 16 * 16 + c / 4) / 16 = b := by omega
  have hc' : (b % 16 * 16 + c / 4) % 16 * 4 = c := by omega
  simp only [bytesOf, encode, hfirst, hsecond, ha', hb', hc', List.map_cons, List.map_nil,
    List.cons_append, List.nil_append]

theorem encode_bytesOf_two {a b : Nat} (ha : a < 64) (hb : b < 64) (hunused : b % 16 = 0) :
    encode (bytesOf [a, b]) = [a, b].map symbol ++ [pad, pad] := by
  have hfirst := toNat_ofNat_of_lt (show a * 4 + b / 16 < 256 by omega)
  have ha' : (a * 4 + b / 16) / 4 = a := by omega
  have hb' : (a * 4 + b / 16) % 4 * 16 = b := by omega
  simp only [bytesOf, encode, hfirst, ha', hb', List.map_cons, List.map_nil, List.cons_append,
    List.nil_append]

theorem encode_bytesOf_group {group : List Nat} {marks : Nat} (hgroup : AreValues group)
    (hfull : group.length + marks = 4) (hleast : 2 ≤ group.length)
    (hunused : unusedBits group = 0) :
    encode (bytesOf group) = group.map symbol ++ List.replicate marks pad := by
  match group, hgroup, hfull, hleast, hunused with
  | [a, b], hgroup, hfull, _, hunused =>
    obtain ⟨ha, hb, -⟩ := by simpa only [areValues_cons] using hgroup
    obtain rfl : marks = 2 := Nat.add_left_cancel hfull
    exact encode_bytesOf_two ha hb hunused
  | [a, b, c], hgroup, hfull, _, hunused =>
    obtain ⟨ha, hb, hc, -⟩ := by simpa only [areValues_cons] using hgroup
    obtain rfl : marks = 1 := Nat.add_left_cancel hfull
    exact encode_bytesOf_three ha hb hc hunused
  | [a, b, c, d], hgroup, hfull, _, _ =>
    obtain ⟨ha, hb, hc, hd, -⟩ := by simpa only [areValues_cons] using hgroup
    obtain rfl : marks = 0 := Nat.add_left_cancel hfull
    exact encode_bytesOf_cons [] ha hb hc hd
  | a :: b :: c :: d :: e :: rest, _, hfull, _, _ =>
    simp only [List.length_cons] at hfull
    omega

theorem encode_bytesOf_append (group : List Nat) : ∀ {whole : List Nat}, AreValues whole →
    whole.length % 4 = 0 →
    encode (bytesOf (whole ++ group)) = whole.map symbol ++ encode (bytesOf group)
  | [], _, _ => rfl
  | [_], _, hfour => by simp at hfour
  | [_, _], _, hfour => by simp at hfour
  | [_, _, _], _, hfour => by simp at hfour
  | a :: b :: c :: d :: rest, hwhole, hfour => by
    simp only [areValues_cons] at hwhole
    obtain ⟨ha, hb, hc, hd, hrest⟩ := hwhole
    have hlength : rest.length % 4 = 0 := by
      simp only [List.length_cons] at hfour
      omega
    simp only [List.cons_append]
    rw [encode_bytesOf_cons _ ha hb hc hd, encode_bytesOf_append group hrest hlength]
    rfl

theorem bytesOf_values (a b c : UInt8) (rest : List Nat) :
    bytesOf (a.toNat / 4 :: (a.toNat % 4 * 16 + b.toNat / 16) ::
      (b.toNat % 16 * 4 + c.toNat / 64) :: c.toNat % 64 :: rest) = a :: b :: c :: bytesOf rest := by
  have ha := a.toNat_lt
  have hb := b.toNat_lt
  have hc := c.toNat_lt
  have hfirst : a.toNat / 4 * 4 + (a.toNat % 4 * 16 + b.toNat / 16) / 16 = a.toNat := by omega
  have hsecond : (a.toNat % 4 * 16 + b.toNat / 16) % 16 * 16 +
      (b.toNat % 16 * 4 + c.toNat / 64) / 4 = b.toNat := by omega
  have hthird : (b.toNat % 16 * 4 + c.toNat / 64) % 4 * 64 + c.toNat % 64 = c.toNat := by omega
  simp only [bytesOf, hfirst, hsecond, hthird, UInt8.ofNat_toNat]

theorem IsGrouped.encode {cs : List UInt8} {whole group : List Nat} {marks : Nat}
    (h : IsGrouped cs whole group marks) : encode (bytesOf (whole ++ group)) = cs := by
  rw [encode_bytesOf_append group h.wholeValues h.whole,
    encode_bytesOf_group h.groupValues h.full h.least h.unused, h.text]

theorem IsGrouped.cons {cs : List UInt8} {whole group : List Nat} {marks a b c d : Nat}
    (h : IsGrouped cs whole group marks) (hvalues : AreValues [a, b, c, d]) :
    IsGrouped ([a, b, c, d].map symbol ++ cs) (a :: b :: c :: d :: whole) group marks where
  text := by rw [h.text]; rfl
  wholeValues := areValues_append.mpr ⟨hvalues, h.wholeValues⟩
  groupValues := h.groupValues
  whole := by
    have hwhole := h.whole
    simp only [List.length_cons]
    omega
  full := h.full
  least := h.least
  unused := h.unused

theorem exists_isGrouped_encode {bytes : List UInt8} (h : bytes ≠ []) :
    ∃ whole group marks, IsGrouped (encode bytes) whole group marks ∧
      bytesOf (whole ++ group) = bytes := by
  induction bytes using encode.induct with
  | case1 a b c rest ih =>
    have hvalues : AreValues [a.toNat / 4, a.toNat % 4 * 16 + b.toNat / 16,
        b.toNat % 16 * 4 + c.toNat / 64, c.toNat % 64] := by
      have ha := a.toNat_lt
      have hb := b.toNat_lt
      have hc := c.toNat_lt
      simp only [areValues_cons]
      exact ⟨by omega, by omega, by omega, by omega, List.forall_mem_nil _⟩
    by_cases hrest : rest = []
    · subst hrest
      refine ⟨[], _, 0, ⟨rfl, List.forall_mem_nil _, hvalues, rfl, rfl, by simp, rfl⟩, ?_⟩
      exact bytesOf_values a b c []
    · obtain ⟨whole, group, marks, hgrouped, rfl⟩ := ih hrest
      exact ⟨_, group, marks, hgrouped.cons hvalues, bytesOf_values a b c (whole ++ group)⟩
  | case2 a b =>
    have ha := a.toNat_lt
    have hb := b.toNat_lt
    have hvalues : AreValues [a.toNat / 4, a.toNat % 4 * 16 + b.toNat / 16, b.toNat % 16 * 4] := by
      simp only [areValues_cons]
      exact ⟨by omega, by omega, by omega, List.forall_mem_nil _⟩
    have hunused : b.toNat % 16 * 4 % 4 = 0 := by omega
    refine ⟨[], _, 1, ⟨rfl, List.forall_mem_nil _, hvalues, rfl, rfl, by simp, hunused⟩, ?_⟩
    have hfirst : a.toNat / 4 * 4 + (a.toNat % 4 * 16 + b.toNat / 16) / 16 = a.toNat := by omega
    have hsecond : (a.toNat % 4 * 16 + b.toNat / 16) % 16 * 16 + b.toNat % 16 * 4 / 4 =
        b.toNat := by omega
    simp only [List.nil_append, bytesOf, hfirst, hsecond, UInt8.ofNat_toNat]
  | case3 a =>
    have ha := a.toNat_lt
    have hvalues : AreValues [a.toNat / 4, a.toNat % 4 * 16] := by
      simp only [areValues_cons]
      exact ⟨by omega, by omega, List.forall_mem_nil _⟩
    have hunused : a.toNat % 4 * 16 % 16 = 0 := by omega
    refine ⟨[], _, 2, ⟨rfl, List.forall_mem_nil _, hvalues, rfl, rfl, by simp, hunused⟩, ?_⟩
    have hfirst : a.toNat / 4 * 4 + a.toNat % 4 * 16 / 16 = a.toNat := by omega
    simp only [List.nil_append, bytesOf, hfirst, UInt8.ofNat_toNat]
  | case4 => exact absurd rfl h

/-- A text can be read if and only if it is what some bytes are written as, and it then stands for
these. -/
theorem decode_eq_ok_iff {cs bytes : List UInt8} : decode cs = .ok bytes ↔ cs = encode bytes := by
  constructor
  · intro h
    by_cases hcs : cs = []
    · subst hcs
      obtain rfl := Except.ok.inj h
      rfl
    · obtain ⟨whole, group, marks, hgrouped, rfl⟩ := exists_isGrouped_of_decode hcs h
      exact hgrouped.encode.symm
  · rintro rfl
    by_cases hbytes : bytes = []
    · subst hbytes
      rfl
    · obtain ⟨whole, group, marks, hgrouped, heq⟩ := exists_isGrouped_encode hbytes
      rw [hgrouped.decode, heq]

end TunnelFleet.Base64
