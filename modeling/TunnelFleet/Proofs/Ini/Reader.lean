import TunnelFleet.Ini.Reader
import TunnelFleet.Proofs.Text.Trim

namespace TunnelFleet

namespace Ini

open Cursor

def ArePassed (stops : List (Option Char)) (cs : List Char) : Prop :=
  ∀ c ∈ cs, some c ∉ stops ∧ c ≠ '\\'

section Equations

variable {stops : List (Option Char)} {taken : List Char} {first : Bool} {key : List Char}
  {c : Cursor} {ch : Char} {cs : List Char}

theorem readUntil_nil (hc : c.rest = []) : readUntil stops taken c =
    if none ∈ stops then .ok (taken.reverse, c) else .error ⟨.unended stops, c⟩ := by
  rw [readUntil.eq_def]
  split
  next => rfl
  next hcons => rw [hc] at hcons; cases hcons

theorem readUntil_stop (hc : c.rest = ch :: cs) (hstop : some ch ∈ stops) :
    readUntil stops taken c = .ok (taken.reverse, c) := by
  rw [readUntil.eq_def]
  split
  next hnil => rw [hc] at hnil; cases hnil
  next hcons =>
    obtain ⟨rfl, -⟩ := List.cons.inj (hc.symm.trans hcons)
    exact if_pos hstop

theorem readUntil_pass (hc : c.rest = ch :: cs) (hpass : some ch ∉ stops) (hslash : ch ≠ '\\') :
    readUntil stops taken c = readUntil stops (ch :: taken) c.step := by
  rw [readUntil.eq_def]
  split
  next hnil => rw [hc] at hnil; cases hnil
  next hcons =>
    obtain ⟨rfl, -⟩ := List.cons.inj (hc.symm.trans hcons)
    rw [if_neg hpass, if_neg hslash]

theorem pieces_nil (hc : c.rest = []) : pieces first taken c = .ok (taken, c) := by
  rw [pieces.eq_def]
  split
  next => rfl
  next hcons => rw [hc] at hcons; cases hcons

theorem pieces_quoted (hc : c.rest = ch :: cs) (hquote : ch = '"' ∨ ch = '\'') :
    pieces first taken c =
      match readUntil [some ch] [] c.step with
      | .error fault => .error fault
      | .ok (found, after) => pieces false (taken ++ found) after.step := by
  rw [pieces.eq_def]
  split
  next hnil => rw [hc] at hnil; cases hnil
  next hcons =>
    obtain ⟨rfl, -⟩ := List.cons.inj (hc.symm.trans hcons)
    rw [if_pos hquote]
    split
    next hread => rw [hread]
    next hread => rw [hread]

theorem pieces_unquoted (hc : c.rest = ch :: cs) (hquote : ¬ (ch = '"' ∨ ch = '\'')) :
    pieces first taken c =
      match readUntil lineStops [] c with
      | .error fault => .error fault
      | .ok (found, after) =>
          .ok (taken ++ if first then Text.trim found else Text.trimRight found, after) := by
  rw [pieces.eq_def]
  split
  next hnil => rw [hc] at hnil; cases hnil
  next hcons =>
    obtain ⟨rfl, -⟩ := List.cons.inj (hc.symm.trans hcons)
    exact if_neg hquote

theorem itemsFrom_nil (hc : c.rest = []) : itemsFrom key c = .ok [] := by
  rw [itemsFrom.eq_def]
  split
  next => rfl
  next hcons => rw [hc] at hcons; cases hcons

theorem itemsFrom_cons (hc : c.rest = ch :: cs) : itemsFrom key c =
    match turn key ch c with
    | .error fault => .error fault
    | .ok t =>
        match itemsFrom t.key t.after with
        | .error fault => .error fault
        | .ok items => .ok (t.item.toList ++ items) := by
  rw [itemsFrom.eq_def]
  split
  next hnil => rw [hc] at hnil; cases hnil
  next hcons =>
    obtain ⟨rfl, -⟩ := List.cons.inj (hc.symm.trans hcons)
    split
    next hturn => rw [hturn]
    next hturn =>
      generalize turn key ch c = answer at hturn
      subst hturn
      rfl

theorem itemsFrom_turn {t : Turn} {items : List Item} (hc : c.rest = ch :: cs)
    (hturn : turn key ch c = .ok t) (hitems : itemsFrom t.key t.after = .ok items) :
    itemsFrom key c = .ok (t.item.toList ++ items) := by
  rw [itemsFrom_cons hc, hturn]
  simp only [hitems]

end Equations

theorem readUntil_passed {stops : List (Option Char)} {stop : Char} {passed rest : List Char}
    {c : Cursor} (hc : c.rest = passed ++ stop :: rest) (hpassed : ArePassed stops passed)
    (hstop : some stop ∈ stops) (taken : List Char) :
    ∃ after, readUntil stops taken c = .ok (taken.reverse ++ passed, after) ∧
      after.rest = stop :: rest := by
  induction passed generalizing c taken with
  | nil => exact ⟨c, by rw [readUntil_stop hc hstop, List.append_nil], hc⟩
  | cons p passed ih =>
    obtain ⟨⟨hp, hslash⟩, hrest⟩ := List.forall_mem_cons.mp hpassed
    have hstep : c.step.rest = passed ++ stop :: rest := by
      rw [rest_step, hc]
      rfl
    obtain ⟨after, hafter, hplace⟩ := ih hstep hrest (p :: taken)
    refine ⟨after, ?_, hplace⟩
    rw [readUntil_pass hc hp hslash, hafter]
    simp

theorem isSpace_eq_false {ch : Char} (h : Text.isBlank ch = false) : isSpace ch = false := by
  cases hspace : isSpace ch with
  | false => rfl
  | true =>
    rcases Bool.or_eq_true_iff.mp hspace with heq | heq
    all_goals
      obtain rfl := beq_iff_eq.mp heq
      cases h

theorem isLineEnd_eq_false {ch : Char} (h : Text.isBlank ch = false) : isLineEnd ch = false := by
  cases hend : isLineEnd ch with
  | false => rfl
  | true =>
    rcases Bool.or_eq_true_iff.mp hend with heq | heq
    all_goals
      obtain rfl := beq_iff_eq.mp heq
      cases h

def behindGap (cs : List Char) : List Char :=
  cs.drop (gap cs)

theorem rest_skipWhile (skipped : Char → Bool) (c : Cursor) :
    (c.skipWhile skipped).rest = c.rest.dropWhile skipped := by
  rw [skipWhile, rest_advance]
  calc c.rest.drop (c.rest.takeWhile skipped).length
      = (c.rest.takeWhile skipped ++ c.rest.dropWhile skipped).drop
          (c.rest.takeWhile skipped).length := by rw [List.takeWhile_append_dropWhile]
    _ = c.rest.dropWhile skipped := List.drop_left

theorem rest_skipGap (c : Cursor) : c.skipGap.rest = behindGap c.rest :=
  rest_advance _ _

theorem behindGap_cons {ch : Char} {cs : List Char} (h : Text.isBlank ch = false) :
    behindGap (ch :: cs) = ch :: cs := by
  simp [behindGap, gap, h]

/-- The first line is no continuation of what comes before it. -/
def IsFlush (cs : List Char) : Prop :=
  ∀ c ∈ cs.head?, isSpace c = false

theorem behindGap_newline {cs : List Char} (h : IsFlush cs) :
    behindGap ('\n' :: cs) = behindGap cs := by
  have hblank : Text.isBlank '\n' = true := by decide
  have hhead : cs.head?.any isSpace = false := by
    rw [Option.any_eq_false]
    exact fun c hc => by simp [h c hc]
  simp [behindGap, gap, hblank, hhead]

/-- From whatever place on a text is read, it says these items. -/
def Reads (cs : List Char) (items : List Item) : Prop :=
  ∀ c : Cursor, c.rest = cs → itemsFrom [] c = .ok items

theorem reads_nil : Reads [] [] :=
  fun _ hc => itemsFrom_nil hc

theorem reads_newline {cs : List Char} {items : List Item} (h : Reads (behindGap cs) items) :
    Reads ('\n' :: cs) items := by
  intro c hc
  have hturn : turn [] '\n' c = .ok ⟨none, [], c.step.skipGap⟩ := rfl
  refine itemsFrom_turn hc hturn (h _ ?_)
  rw [rest_skipGap, rest_step, hc]
  rfl

structure IsKey (key : List Char) : Prop extends Text.IsTrimmed key where
  unmarked : ∀ c ∈ key, c ≠ '=' ∧ c ≠ ':' ∧ c ≠ '\\'
  head_ne : ∀ c ∈ key.head?, c ≠ ';' ∧ c ≠ '#' ∧ c ≠ '['
  ne_nil : key ≠ []

structure IsValue (value : List Char) : Prop extends Text.IsTrimmed value where
  unbroken : ∀ c ∈ value, c ≠ '\n' ∧ c ≠ '\r' ∧ c ≠ '\\'
  head_ne : ∀ c ∈ value.head?, c ≠ '"' ∧ c ≠ '\''

structure IsName (name : List Char) : Prop extends Text.IsTrimmed name where
  unclosed : ∀ c ∈ name, c ≠ ']' ∧ c ≠ '\\'

instance (key : List Char) : Decidable (IsKey key) :=
  decidable_of_iff
    (Text.IsTrimmed key ∧ key.all (fun c => c ≠ '=' ∧ c ≠ ':' ∧ c ≠ '\\') = true ∧
      key.head?.all (fun c => c ≠ ';' ∧ c ≠ '#' ∧ c ≠ '[') = true ∧ key ≠ []) <| by
    simp only [List.all_eq_true, Option.all_eq_true, decide_eq_true_eq]
    exact ⟨fun ⟨htrimmed, hall, hhead, hne⟩ => ⟨htrimmed, hall, hhead, hne⟩,
      fun h => ⟨h.toIsTrimmed, h.unmarked, h.head_ne, h.ne_nil⟩⟩

instance (value : List Char) : Decidable (IsValue value) :=
  decidable_of_iff
    (Text.IsTrimmed value ∧ value.all (fun c => c ≠ '\n' ∧ c ≠ '\r' ∧ c ≠ '\\') = true ∧
      value.head?.all (fun c => c ≠ '"' ∧ c ≠ '\'') = true) <| by
    simp only [List.all_eq_true, Option.all_eq_true, decide_eq_true_eq]
    exact ⟨fun ⟨htrimmed, hall, hhead⟩ => ⟨htrimmed, hall, hhead⟩,
      fun h => ⟨h.toIsTrimmed, h.unbroken, h.head_ne⟩⟩

instance (name : List Char) : Decidable (IsName name) :=
  decidable_of_iff
    (Text.IsTrimmed name ∧ name.all (fun c => c ≠ ']' ∧ c ≠ '\\') = true) <| by
    simp only [List.all_eq_true, decide_eq_true_eq]
    exact ⟨fun ⟨htrimmed, hall⟩ => ⟨htrimmed, hall⟩, fun h => ⟨h.toIsTrimmed, h.unclosed⟩⟩

theorem IsKey.passed {key : List Char} (h : IsKey key) : ArePassed keyStops key := by
  intro c hc
  obtain ⟨hequals, hcolon, hslash⟩ := h.unmarked c hc
  exact ⟨by simp [keyStops, hequals, hcolon], hslash⟩

theorem IsValue.passed {value : List Char} (h : IsValue value) : ArePassed lineStops value := by
  intro c hc
  obtain ⟨hfeed, hreturn, hslash⟩ := h.unbroken c hc
  exact ⟨by simp [lineStops, hfeed, hreturn], hslash⟩

theorem IsName.passed {name : List Char} (h : IsName name) : ArePassed [some ']'] name := by
  intro c hc
  obtain ⟨hbracket, hslash⟩ := h.unclosed c hc
  exact ⟨by simp [hbracket], hslash⟩

theorem turn_key {key rest : List Char} {c : Cursor} (hkey : IsKey key)
    (hc : c.rest = key ++ ' ' :: '=' :: rest) :
    ∃ ch cs after, c.rest = ch :: cs ∧ turn [] ch c = .ok ⟨none, key, after⟩ ∧
      after.rest = '=' :: rest := by
  obtain ⟨ch, cs, rfl⟩ := List.exists_cons_of_ne_nil hkey.ne_nil
  have hblank := hkey.head ch rfl
  obtain ⟨hsemicolon, hhash, hbracket⟩ := hkey.head_ne ch rfl
  have hpassed : ArePassed keyStops ((ch :: cs) ++ [' ']) := by
    intro x hx
    rcases List.mem_append.mp hx with hx | hx
    · exact hkey.passed x hx
    · obtain rfl := List.mem_singleton.mp hx
      exact ⟨by decide, by decide⟩
  obtain ⟨hequals, hcolon, -⟩ := hkey.unmarked ch List.mem_cons_self
  have hrest : c.rest = ((ch :: cs) ++ [' ']) ++ '=' :: rest := by
    rw [hc]
    simp
  obtain ⟨after, hread, hafter⟩ := readUntil_passed hrest hpassed (by decide) []
  have htrim : Text.trim ((ch :: cs) ++ [' ']) = ch :: cs := by
    rw [Text.trim, List.cons_append, Text.trimLeft_cons hblank, ← List.cons_append,
      Text.trimRight_concat_blank (by decide), hkey.trimRight_eq]
  refine ⟨ch, _, after.skipGap, hc, ?_, ?_⟩
  · rw [List.reverse_nil, List.nil_append] at hread
    rw [turn, if_neg (by simp [hsemicolon, hhash]), if_neg hbracket, if_neg (by simp [hequals, hcolon]),
      if_neg (by simp [isSpace_eq_false hblank]), if_neg (by simp [isLineEnd_eq_false hblank]),
      keyTurn, hread]
    simp only [htrim]
  · rw [rest_skipGap, hafter, behindGap_cons (by decide)]

theorem exists_head_value {value : List Char} (hvalue : IsValue value) (rest : List Char) :
    ∃ ch cs, value ++ '\n' :: rest = ch :: cs ∧ ¬ (ch = '"' ∨ ch = '\'') ∧
      (Text.isBlank ch && !isLineEnd ch) = false := by
  cases value with
  | nil => exact ⟨'\n', rest, rfl, by decide, by decide⟩
  | cons ch cs =>
    have hhead := hvalue.head_ne ch rfl
    exact ⟨ch, _, rfl, by simp [hhead], by simp [hvalue.head ch rfl]⟩

theorem pieces_value {value rest : List Char} {c : Cursor} (hvalue : IsValue value)
    (hc : c.rest = value ++ '\n' :: rest) :
    ∃ after, pieces true [] c = .ok (value, after) ∧ after.rest = '\n' :: rest := by
  obtain ⟨after, hread, hafter⟩ := readUntil_passed hc hvalue.passed (by decide) []
  refine ⟨after, ?_, hafter⟩
  obtain ⟨first, others, hfirst, hquote, -⟩ := exists_head_value hvalue rest
  rw [pieces_unquoted (hc.trans hfirst) hquote, hread]
  simp [hvalue.trim_eq]

theorem turn_value {key value rest : List Char} {c : Cursor} (hkey : key ≠ []) (hvalue : IsValue value)
    (hc : c.rest = '=' :: ' ' :: value ++ '\n' :: rest) :
    ∃ after, turn key '=' c =
        .ok ⟨some (.entry (String.ofList key) (String.ofList value)), [], after⟩ ∧
      after.rest = behindGap ('\n' :: rest) := by
  have hskipped : (c.step.skipWhile fun ch => Text.isBlank ch && !isLineEnd ch).rest =
      value ++ '\n' :: rest := by
    obtain ⟨first, others, hfirst, -, hstays⟩ := exists_head_value hvalue rest
    have hspace : (Text.isBlank ' ' && !isLineEnd ' ') = true := by decide
    rw [rest_skipWhile, rest_step, hc, List.cons_append, List.tail_cons, List.cons_append,
      List.dropWhile_cons, if_pos hspace, hfirst, List.dropWhile_cons, if_neg (by simp [hstays])]
  obtain ⟨after, hpieces, hafter⟩ := pieces_value hvalue hskipped
  refine ⟨after.skipGap, ?_, ?_⟩
  · rw [turn, if_neg (by decide), if_neg (by decide), if_pos (by decide), if_neg hkey, Ini.value,
      hpieces]
  · rw [rest_skipGap, hafter]

theorem reads_entry {key value rest : List Char} {items : List Item} (hkey : IsKey key)
    (hvalue : IsValue value) (hflush : IsFlush rest) (h : Reads (behindGap rest) items) :
    Reads (key ++ ' ' :: '=' :: ' ' :: value ++ '\n' :: rest)
      (.entry (String.ofList key) (String.ofList value) :: items) := by
  intro c hc
  rw [List.append_assoc] at hc
  obtain ⟨ch, cs, middle, hfirst, hturn, hmiddle⟩ := turn_key hkey hc
  obtain ⟨after, hturn', hafter⟩ := turn_value hkey.ne_nil hvalue hmiddle
  rw [behindGap_newline hflush] at hafter
  exact itemsFrom_turn hfirst hturn (itemsFrom_turn hmiddle hturn' (h after hafter))

theorem reads_header {name rest : List Char} {items : List Item} (hname : IsName name)
    (hflush : IsFlush rest) (h : Reads (behindGap rest) items) :
    Reads ('[' :: name ++ ']' :: '\n' :: rest) (.header (String.ofList name) :: items) := by
  intro c hc
  have hstep : c.step.rest = name ++ ']' :: '\n' :: rest := by
    rw [rest_step, hc]
    rfl
  obtain ⟨after, hread, hafter⟩ := readUntil_passed hstep hname.passed (by decide) []
  have hturn : turn [] '[' c =
      .ok ⟨some (.header (String.ofList name)), [], after.step.skipGap⟩ := by
    rw [turn, if_neg (by decide), if_pos rfl, headerTurn, header, hread]
    simp [hname.trim_eq]
  refine itemsFrom_turn hc hturn (h _ ?_)
  rw [rest_skipGap, rest_step, hafter, List.tail_cons, behindGap_newline hflush]

end Ini

end TunnelFleet
