import TunnelFleet.Proofs.Ini.Reader

namespace TunnelFleet.Ini

open Cursor

theorem takeWhile_append_cons {skipped : Char → Bool} {stop : Char} (h : skipped stop = false)
    (cs rest : List Char) : (cs ++ stop :: rest).takeWhile skipped = cs.takeWhile skipped := by
  induction cs with
  | nil => rw [List.nil_append, List.takeWhile_cons_of_neg (by simp [h]), List.takeWhile_nil]
  | cons c cs ih => rw [List.cons_append, List.takeWhile_cons, List.takeWhile_cons, ih]

theorem gap_concat (cs : List Char) :
    gap (cs ++ ['\n']) = if gap cs = cs.length then cs.length + 1 else gap cs := by
  induction cs with
  | nil => decide
  | cons c cs ih =>
    rw [List.cons_append, gap, gap]
    split
    next hblank =>
      have hhead : (cs ++ ['\n']).head?.any isSpace = cs.head?.any isSpace := by
        cases cs with
        | nil => decide
        | cons d ds => rfl
      rw [hhead]
      split
      next hend =>
        -- a line that continues the one before it is not the end of the text
        have hne : cs ≠ [] := by
          rintro rfl
          simp at hend
        have hlength := List.length_pos_iff.mpr hne
        rw [if_neg]
        simp only [List.length_cons]
        omega
      next =>
        rw [ih, List.length_cons]
        split <;> split <;> omega
    next => simp

/-- Places in a text and in the same text with one more line feed at its end: both before that line
feed with the same characters ahead of it, or both at the end. -/
structure Beside (c d : Cursor) : Prop where
  plain : '\\' ∉ c.rest
  rest : d.rest = c.rest ++ ['\n'] ∨ (c.rest = [] ∧ d.rest = [])
  col : c.rest ≠ [] → d.col = c.col

namespace Beside

variable {c d : Cursor} {ch : Char} {cs : List Char}

theorem of_ended (hc : c.rest = []) (hd : d.rest = []) : Beside c d where
  plain := by simp [hc]
  rest := .inr ⟨hc, hd⟩
  col h := absurd hc h

theorem of_nil (h : Beside c d) (hc : c.rest = []) : d.rest = [] ∨ d.rest = ['\n'] := by
  rcases h.rest with hd | ⟨-, hd⟩
  · exact .inr (by rw [hd, hc, List.nil_append])
  · exact .inl hd

theorem of_cons (h : Beside c d) (hc : c.rest = ch :: cs) : d.rest = ch :: (cs ++ ['\n']) := by
  rcases h.rest with hd | ⟨hnil, -⟩
  · rw [hd, hc, List.cons_append]
  · rw [hc] at hnil
    cases hnil

theorem arrive {line line' col col' : Nat} (hplain : '\\' ∉ cs) (hcol : cs ≠ [] → col' = col) :
    Beside (arrive line col cs) (Cursor.arrive line' col' (cs ++ ['\n'])) where
  plain := by rwa [rest_arrive]
  rest := .inl (by rw [rest_arrive, rest_arrive])
  col h := by
    rw [rest_arrive] at h
    obtain ⟨ch, rest, rfl⟩ := List.exists_cons_of_ne_nil h
    rw [hcol h, List.cons_append, Cursor.arrive, Cursor.arrive]
    split <;> rfl

theorem step (h : Beside c d) : Beside c.step d.step := by
  cases hc : c.rest with
  | nil =>
    refine of_ended (by rw [rest_step, hc]; rfl) ?_
    rw [rest_step]
    rcases h.of_nil hc with hd | hd <;> rw [hd] <;> rfl
  | cons ch cs =>
    have hplain : '\\' ∉ cs := fun hmem => h.plain (hc ▸ List.mem_cons_of_mem _ hmem)
    rw [Cursor.step, Cursor.step, hc, h.of_cons hc]
    exact arrive hplain fun _ => h.col (by simp [hc])

theorem advance (h : Beside c d) (n : Nat) : Beside (advance n c) (Cursor.advance n d) := by
  induction n generalizing c d with
  | zero => exact h
  | succ n ih => exact ih h.step

theorem length_takeWhile {skipped : Char → Bool} (h : Beside c d)
    (hskipped : skipped '\n' = false) :
    (d.rest.takeWhile skipped).length = (c.rest.takeWhile skipped).length := by
  rcases h.rest with hd | ⟨hc, hd⟩
  · rw [hd, takeWhile_append_cons hskipped]
  · rw [hc, hd]

theorem skipWhile {skipped : Char → Bool} (h : Beside c d) (hskipped : skipped '\n' = false) :
    Beside (c.skipWhile skipped) (d.skipWhile skipped) := by
  rw [Cursor.skipWhile, Cursor.skipWhile, h.length_takeWhile hskipped]
  exact h.advance _

theorem skipLine (h : Beside c d) : Beside c.skipLine d.skipLine := by
  rw [Cursor.skipLine, Cursor.skipLine, h.length_takeWhile (by decide)]
  exact h.advance _

theorem skipGap (h : Beside c d) : Beside c.skipGap d.skipGap := by
  rw [Cursor.skipGap, Cursor.skipGap]
  rcases h.rest with hd | ⟨hc, hd⟩
  · rw [hd, gap_concat]
    split
    next hwhole =>
      refine of_ended ?_ ?_
      · rw [rest_advance, hwhole, List.drop_length]
      · rw [rest_advance, hd, List.drop_eq_nil_of_le (by simp)]
    next => exact h.advance _
  · rw [hc, hd]
    exact h

end Beside

inductive Alike {α : Type} (same : α → α → Prop) : Except Fault α → Except Fault α → Prop
  | read {a b : α} (h : same a b) : Alike same (.ok a) (.ok b)
  | unread (e f : Fault) : Alike same (.error e) (.error f)

def SameRead (a b : List Char × Cursor) : Prop :=
  a.1 = b.1 ∧ Beside a.2 b.2

structure SameTurn (places : Cursor → Cursor → Prop) (t u : Turn) : Prop where
  item : t.item = u.item
  key : t.key = u.key
  after : places t.after u.after

theorem rest_of_readUntil_error {stops : List (Option Char)} {taken : List Char} {c : Cursor}
    {fault : Fault} (hplain : '\\' ∉ c.rest) (h : readUntil stops taken c = .error fault) :
    fault.place.rest = [] := by
  fun_induction readUntil stops taken c with
  | case1 => cases h
  | case2 taken c hc =>
    obtain rfl := Except.error.inj h
    exact hc
  | case3 => cases h
  | case4 taken c _ _ _ hc => simp [hc] at hplain
  | case5 taken c _ _ _ _ hc => simp [hc] at hplain
  | case6 taken c ch cs hc _ _ ih =>
    refine ih (fun hmem => hplain ?_) h
    rw [rest_step, hc] at hmem
    exact hc ▸ List.mem_cons_of_mem _ hmem

theorem newline_mem_lineStops_iff : some '\n' ∈ lineStops ↔ none ∈ lineStops := by
  decide

theorem newline_mem_keyStops_iff : some '\n' ∈ keyStops ↔ none ∈ keyStops := by
  decide

theorem newline_mem_bracket_iff : some '\n' ∈ [some ']'] ↔ none ∈ [some ']'] := by
  decide

theorem newline_mem_quote_iff {ch : Char} (hquote : ch = '"' ∨ ch = '\'') :
    some '\n' ∈ [some ch] ↔ none ∈ [some ch] := by
  rcases hquote with rfl | rfl <;> decide

namespace Beside

variable {c d : Cursor}

/-- Stops that end at the end of a line if and only if they end at the end of the text. -/
theorem readUntil (h : Beside c d) {stops : List (Option Char)}
    (hstops : some '\n' ∈ stops ↔ none ∈ stops) (taken : List Char) :
    Alike SameRead (readUntil stops taken c) (Ini.readUntil stops taken d) := by
  fun_induction Ini.readUntil stops taken c generalizing d with
  | case1 taken c hc hnone =>
    have hread : Ini.readUntil stops taken d = .ok (taken.reverse, d) := by
      rcases h.of_nil hc with hd | hd
      · rw [readUntil_nil hd, if_pos hnone]
      · exact readUntil_stop hd (hstops.mpr hnone)
    rw [hread]
    exact .read ⟨rfl, h⟩
  | case2 taken c hc hnone =>
    rcases h.of_nil hc with hd | hd
    · rw [readUntil_nil hd, if_neg hnone]
      exact .unread _ _
    · have hstep : d.step.rest = [] := by
        rw [rest_step, hd]
        rfl
      rw [readUntil_pass hd (fun hstop => hnone (hstops.mp hstop)) (by decide),
        readUntil_nil hstep, if_neg hnone]
      exact .unread _ _
  | case3 taken c ch cs hc hstop =>
    rw [readUntil_stop (h.of_cons hc) hstop]
    exact .read ⟨rfl, h⟩
  | case4 taken c _ _ _ hc => exact absurd h.plain (by simp [hc])
  | case5 taken c _ _ _ _ hc => exact absurd h.plain (by simp [hc])
  | case6 taken c ch cs hc hpass hslash ih =>
    rw [readUntil_pass (h.of_cons hc) hpass hslash]
    exact ih h.step

theorem pieces (h : Beside c d) (first : Bool) (taken : List Char) :
    Alike SameRead (pieces first taken c) (Ini.pieces first taken d) := by
  fun_induction Ini.pieces first taken c generalizing d with
  | case1 first taken c hc =>
    have hread : Ini.pieces first taken d = .ok (taken, d) := by
      rcases h.of_nil hc with hd | hd
      · exact pieces_nil hd
      · rw [pieces_unquoted hd (by decide), readUntil_stop hd (by decide)]
        cases first <;> simp [Text.trim, Text.trimRight, Text.trimLeft]
    rw [hread]
    exact .read ⟨rfl, h⟩
  | case2 first taken c ch cs hc hquote fault hread =>
    have hquoted := h.step.readUntil (newline_mem_quote_iff hquote) []
    rw [hread] at hquoted
    rw [pieces_quoted (h.of_cons hc) hquote]
    generalize Ini.readUntil [some ch] [] d.step = other at hquoted
    cases hquoted
    exact .unread _ _
  | case3 first taken c ch cs hc hquote found after hread ih =>
    have hquoted := h.step.readUntil (newline_mem_quote_iff hquote) []
    rw [hread] at hquoted
    rw [pieces_quoted (h.of_cons hc) hquote]
    generalize Ini.readUntil [some ch] [] d.step = other at hquoted
    cases hquoted with
    | read hsame =>
      obtain ⟨rfl, hafter⟩ := hsame
      exact ih hafter.step
  | case4 first taken c ch cs hc hquote fault hread =>
    have hline := h.readUntil newline_mem_lineStops_iff []
    rw [hread] at hline
    rw [pieces_unquoted (h.of_cons hc) hquote]
    generalize Ini.readUntil lineStops [] d = other at hline
    cases hline
    exact .unread _ _
  | case5 first taken c ch cs hc hquote found after hread =>
    have hline := h.readUntil newline_mem_lineStops_iff []
    rw [hread] at hline
    rw [pieces_unquoted (h.of_cons hc) hquote]
    generalize Ini.readUntil lineStops [] d = other at hline
    cases hline with
    | read hsame =>
      obtain ⟨rfl, hafter⟩ := hsame
      exact .read ⟨rfl, hafter⟩

theorem value (h : Beside c d) : Alike SameRead (value c) (Ini.value d) :=
  (h.step.skipWhile (by decide)).pieces true []

theorem header (h : Beside c d) : Alike SameRead (header c) (Ini.header d) := by
  have hname := h.step.readUntil newline_mem_bracket_iff []
  rw [Ini.header, Ini.header]
  generalize Ini.readUntil [some ']'] [] c.step = name at hname
  generalize Ini.readUntil [some ']'] [] d.step = other at hname
  cases hname with
  | unread => exact .unread _ _
  | read hsame =>
    obtain ⟨hfound, hafter⟩ := hsame
    exact .read ⟨congrArg Text.trim hfound, hafter.step⟩

theorem headerTurn (h : Beside c d) (key : List Char) :
    Alike (SameTurn Beside) (headerTurn key c) (Ini.headerTurn key d) := by
  have hheader := h.header
  rw [Ini.headerTurn, Ini.headerTurn]
  generalize Ini.header c = name at hheader
  generalize Ini.header d = other at hheader
  cases hheader with
  | unread => exact .unread _ _
  | read hsame =>
    obtain ⟨hfound, hafter⟩ := hsame
    exact .read ⟨by rw [hfound], rfl, hafter.skipGap⟩

theorem keyTurn (h : Beside c d) : Alike (SameTurn Beside) (keyTurn c) (Ini.keyTurn d) := by
  have hkey := h.readUntil newline_mem_keyStops_iff []
  rw [Ini.keyTurn, Ini.keyTurn]
  generalize Ini.readUntil keyStops [] c = found at hkey
  generalize Ini.readUntil keyStops [] d = other at hkey
  cases hkey with
  | unread => exact .unread _ _
  | read hsame =>
    obtain ⟨hfound, hafter⟩ := hsame
    exact .read ⟨rfl, congrArg Text.trim hfound, hafter.skipGap⟩

/-- A key that cannot be read is passed over with all that is behind it, so both readings come to
the end. -/
theorem indentedTurn (h : Beside c d) (key : List Char) :
    Alike (SameTurn Beside) (indentedTurn key c) (Ini.indentedTurn key d) := by
  cases hc : c.rest with
  | nil =>
    have hturn : Ini.indentedTurn key c = .ok ⟨none, key, c⟩ := by
      rw [Ini.indentedTurn, hc]
    rw [hturn, Ini.indentedTurn]
    rcases h.of_nil hc with hd | hd
    · rw [hd]
      exact .read ⟨rfl, rfl, h⟩
    · have hstep : d.step.rest = [] := by
        rw [rest_step, hd]
        rfl
      rw [hd]
      exact .read ⟨rfl, rfl, of_ended hc hstep⟩
  | cons ch cs =>
    rw [Ini.indentedTurn, Ini.indentedTurn, hc, h.of_cons hc]
    dsimp only
    split
    · exact h.headerTurn key
    · split
      · exact .read ⟨rfl, rfl, h.step⟩
      · have hplain : '\\' ∉ d.rest := by
          rw [h.of_cons hc, ← List.cons_append, ← hc]
          simpa using h.plain
        have hfound := h.readUntil newline_mem_keyStops_iff []
        generalize hread : Ini.readUntil keyStops [] c = found at hfound
        generalize hother : Ini.readUntil keyStops [] d = other at hfound
        cases hfound with
        | unread =>
          have hend := of_ended (rest_of_readUntil_error h.plain hread)
            (rest_of_readUntil_error hplain hother)
          exact .read ⟨rfl, rfl, hend.skipGap⟩
        | read hsame =>
          obtain ⟨hkey, hafter⟩ := hsame
          exact .read ⟨rfl, congrArg Text.trim hkey, hafter.skipGap⟩

theorem turn (h : Beside c d) {ch : Char} {cs : List Char} (hc : c.rest = ch :: cs)
    (key : List Char) : Alike (SameTurn Beside) (turn key ch c) (Ini.turn key ch d) := by
  have hcol : d.col = c.col := h.col (by simp [hc])
  rw [Ini.turn, Ini.turn, hcol]
  split
  · split
    · exact .unread _ _
    · exact .read ⟨rfl, rfl, h.skipLine.skipGap⟩
  · split
    · exact h.headerTurn key
    · split
      · split
        · exact .unread _ _
        · have hvalue := h.value
          generalize Ini.value c = found at hvalue
          generalize Ini.value d = other at hvalue
          cases hvalue with
          | unread => exact .unread _ _
          | read hsame =>
            obtain ⟨hfound, hafter⟩ := hsame
            exact .read ⟨by rw [hfound], rfl, hafter.skipGap⟩
      · split
        · exact (h.skipWhile (by decide)).indentedTurn key
        · split
          · exact .read ⟨rfl, rfl, h.step.skipGap⟩
          · exact h.keyTurn

theorem itemsFrom (h : Beside c d) (key : List Char) :
    Alike (· = ·) (itemsFrom key c) (Ini.itemsFrom key d) := by
  induction hlength : c.rest.length using Nat.strongRecOn generalizing c d key with
  | _ length ih =>
    cases hc : c.rest with
    | nil =>
      have hother : Ini.itemsFrom key d = .ok [] := by
        rcases h.of_nil hc with hd | hd
        · exact itemsFrom_nil hd
        · have hturn : Ini.turn key '\n' d = .ok ⟨none, key, d.step.skipGap⟩ := rfl
          refine itemsFrom_turn hd hturn (itemsFrom_nil ?_)
          rw [rest_skipGap, rest_step, hd]
          rfl
      rw [itemsFrom_nil hc, hother]
      exact .read rfl
    | cons ch cs =>
      have hturns := h.turn hc key
      rw [itemsFrom_cons hc, itemsFrom_cons (h.of_cons hc)]
      generalize hturn : Ini.turn key ch c = found at hturns
      generalize Ini.turn key ch d = other at hturns
      cases hturns with
      | unread => exact .unread _ _
      | @read t u hsame =>
        have hless : t.after.rest.length < length := hlength ▸ turn_length_lt hc hturn
        have hitems := ih _ hless hsame.after t.key rfl
        rw [hsame.key] at hitems
        simp only [hsame.item, hsame.key]
        generalize Ini.itemsFrom u.key t.after = items at hitems
        generalize Ini.itemsFrom u.key u.after = others at hitems
        cases hitems with
        | unread => exact .unread _ _
        | read hsame => exact .read (by rw [hsame])

end Beside

/-- A text without backslashes and the same with a line feed behind it say the same, or neither can
be read. -/
theorem ofText_append_newline_iff {s : String} (h : '\\' ∉ s.toList) (doc : Document) :
    Document.ofText (s ++ "\n") = .ok doc ↔ Document.ofText s = .ok doc := by
  have hbeside : Beside (Cursor.ofText s) (Cursor.ofText (s ++ "\n")) := by
    rw [Cursor.ofText, Cursor.ofText, String.toList_append]
    exact Beside.arrive h fun _ => rfl
  have hitems := hbeside.itemsFrom []
  rw [Document.ofText, Document.ofText, items, items]
  generalize itemsFrom [] (Cursor.ofText s) = found at hitems
  generalize itemsFrom [] (Cursor.ofText (s ++ "\n")) = other at hitems
  cases hitems with
  | unread => exact ⟨nofun, nofun⟩
  | read hsame => rw [hsame]

end TunnelFleet.Ini
