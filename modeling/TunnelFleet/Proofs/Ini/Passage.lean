import TunnelFleet.Proofs.Ini.Newline

namespace TunnelFleet.Ini

open Cursor

deriving instance DecidableEq for Turn

/-- Turn by turn the reader comes from a place with a key that waits for its value to another such
place, and reads these items on the way. -/
inductive Reaches : List Char → Cursor → List Item → List Char → Cursor → Prop
  | here (key : List Char) (c : Cursor) : Reaches key c [] key c
  | turn {key last : List Char} {c after : Cursor} {ch : Char} {cs : List Char} {t : Turn}
      {items : List Item} (hc : c.rest = ch :: cs) (hturn : turn key ch c = .ok t)
      (rest : Reaches t.key t.after items last after) :
      Reaches key c (t.item.toList ++ items) last after

theorem Reaches.itemsFrom_eq {key last : List Char} {c after : Cursor} {items : List Item}
    (h : Reaches key c items last after) :
    itemsFrom key c = (itemsFrom last after).map (items ++ ·) := by
  induction h with
  | here key c => cases itemsFrom key c <;> rfl
  | @turn key last c after ch cs t items hc hturn _ ih =>
    rw [itemsFrom_cons hc, hturn]
    simp only [ih]
    cases itemsFrom last after with
    | error fault => rfl
    | ok others => simp [Except.map]

theorem Reaches.length_le {key last : List Char} {c after : Cursor} {items : List Item}
    (h : Reaches key c items last after) : after.rest.length ≤ c.rest.length := by
  induction h with
  | here => exact Nat.le_refl _
  | turn hc hturn _ ih => exact Nat.le_trans ih (Nat.le_of_lt (turn_length_lt hc hturn))

theorem lt_of_lt_skipGap {c : Cursor} {n : Nat} (h : n < c.skipGap.rest.length) :
    n < c.rest.length :=
  Nat.lt_of_lt_of_le h (length_advance_le _ _)

theorem lt_of_lt_step {c : Cursor} {n : Nat} (h : n < c.step.rest.length) : n < c.rest.length :=
  Nat.lt_of_lt_of_le h c.length_step_le

theorem length_le_of_readUntil {stops : List (Option Char)} {taken found : List Char}
    {c after : Cursor} (h : readUntil stops taken c = .ok (found, after)) :
    after.rest.length ≤ c.rest.length := by
  have hle := length_readUntil stops taken c
  rwa [h] at hle

theorem length_le_of_pieces {first : Bool} {taken found : List Char} {c after : Cursor}
    (h : pieces first taken c = .ok (found, after)) : after.rest.length ≤ c.rest.length := by
  have hle := length_pieces first taken c
  rwa [h] at hle

theorem gap_append_cons {mark : Char} (hmark : Text.isBlank mark = false) (xs ys : List Char)
    (ahead : List Char) : gap (ahead ++ mark :: xs) = gap (ahead ++ mark :: ys) ∧
      gap (ahead ++ mark :: xs) ≤ ahead.length := by
  induction ahead with
  | nil => simp [gap, hmark]
  | cons ch ahead ih =>
    obtain ⟨heq, hle⟩ := ih
    have hhead : (ahead ++ mark :: xs).head?.any isSpace = (ahead ++ mark :: ys).head?.any isSpace := by
      cases ahead <;> rfl
    rw [List.cons_append, List.cons_append, gap, gap, hhead, heq, List.length_cons]
    refine ⟨rfl, ?_⟩
    split
    next =>
      split
      next => omega
      next => omega
    next => omega

/-- Places in two texts that go on alike up to a character, behind which they may differ. -/
structure Abreast (mark : Char) (xs ys : List Char) (c d : Cursor) : Prop where
  plain : '\\' ∉ c.rest
  rest : ∃ ahead, c.rest = ahead ++ mark :: xs ∧ d.rest = ahead ++ mark :: ys
  col : d.col = c.col

namespace Abreast

variable {mark : Char} {xs ys : List Char} {c d : Cursor}

theorem arrive {ahead : List Char} {line line' col : Nat} (hplain : '\\' ∉ ahead ++ mark :: xs) :
    Abreast mark xs ys (arrive line col (ahead ++ mark :: xs))
      (Cursor.arrive line' col (ahead ++ mark :: ys)) where
  plain := by rwa [rest_arrive]
  rest := ⟨ahead, rest_arrive .., rest_arrive ..⟩
  col := by
    cases ahead with
    | nil =>
      rw [List.nil_append, List.nil_append, Cursor.arrive, Cursor.arrive]
      split <;> rfl
    | cons ch ahead =>
      rw [List.cons_append, List.cons_append, Cursor.arrive, Cursor.arrive]
      split <;> rfl

theorem exists_cons (h : Abreast mark xs ys c d) :
    ∃ ch cs ds, c.rest = ch :: cs ∧ d.rest = ch :: ds := by
  obtain ⟨ahead, hc, hd⟩ := h.rest
  cases ahead with
  | nil => exact ⟨mark, xs, ys, hc, hd⟩
  | cons ch ahead => exact ⟨ch, _, _, hc, hd⟩

theorem of_cons {ch : Char} {cs : List Char} (h : Abreast mark xs ys c d) (hc : c.rest = ch :: cs) :
    ∃ ds, d.rest = ch :: ds := by
  obtain ⟨ch', cs', ds, hc', hd⟩ := h.exists_cons
  obtain ⟨rfl, -⟩ := List.cons.inj (hc.symm.trans hc')
  exact ⟨ds, hd⟩

theorem step (h : Abreast mark xs ys c d) (hlength : xs.length < c.step.rest.length) :
    Abreast mark xs ys c.step d.step := by
  obtain ⟨ahead, hc, hd⟩ := h.rest
  cases ahead with
  | nil =>
    rw [rest_step, hc] at hlength
    simp at hlength
  | cons ch ahead =>
    have hplain : '\\' ∉ ahead ++ mark :: xs := fun hmem =>
      h.plain (by rw [hc]; exact List.mem_cons_of_mem _ hmem)
    rw [Cursor.step, Cursor.step, hc, hd]
    simp only [List.cons_append, h.col]
    exact arrive hplain

theorem advance (h : Abreast mark xs ys c d) {n : Nat}
    (hlength : xs.length < (Cursor.advance n c).rest.length) :
    Abreast mark xs ys (Cursor.advance n c) (Cursor.advance n d) := by
  induction n generalizing c d with
  | zero => exact h
  | succ n ih =>
    rw [Cursor.advance] at hlength ⊢
    exact ih (h.step (Nat.lt_of_lt_of_le hlength (length_advance_le n c.step))) hlength

theorem skipWhile {skipped : Char → Bool} (h : Abreast mark xs ys c d)
    (hskipped : skipped mark = false) :
    Abreast mark xs ys (c.skipWhile skipped) (d.skipWhile skipped) := by
  obtain ⟨ahead, hc, hd⟩ := h.rest
  have hle := (List.takeWhile_prefix skipped (l := ahead)).length_le
  rw [Cursor.skipWhile, Cursor.skipWhile, hd, takeWhile_append_cons hskipped, hc,
    takeWhile_append_cons hskipped]
  refine h.advance ?_
  rw [rest_advance, hc, List.length_drop, List.length_append, List.length_cons]
  omega

theorem skipLine (h : Abreast mark xs ys c d) (hmark : mark ≠ '\n')
    (hlength : xs.length < c.skipLine.rest.length) :
    Abreast mark xs ys c.skipLine d.skipLine := by
  obtain ⟨ahead, hc, hd⟩ := h.rest
  have hpasses : (mark != '\n') = true := bne_iff_ne.mpr hmark
  have htake (zs : List Char) : (ahead ++ mark :: zs).takeWhile (· != '\n') =
      if (ahead.takeWhile (· != '\n')).length = ahead.length then
        ahead ++ mark :: zs.takeWhile (· != '\n')
      else ahead.takeWhile (· != '\n') := by
    simp only [List.takeWhile_append, List.takeWhile_cons, hpasses, if_true]
  rw [Cursor.skipLine, rest_advance, List.length_drop, hc, htake] at hlength
  rw [Cursor.skipLine, Cursor.skipLine, hc, hd, htake, htake]
  split at hlength
  next =>
    simp only [List.length_append, List.length_cons] at hlength
    omega
  next hends =>
    rw [if_neg hends, if_neg hends]
    refine h.advance ?_
    rwa [rest_advance, List.length_drop, hc]

theorem skipGap (h : Abreast mark xs ys c d) (hmark : Text.isBlank mark = false) :
    Abreast mark xs ys c.skipGap d.skipGap := by
  obtain ⟨ahead, hc, hd⟩ := h.rest
  obtain ⟨hgap, hle⟩ := gap_append_cons hmark xs ys ahead
  rw [Cursor.skipGap, Cursor.skipGap, hd, ← hgap, hc]
  refine h.advance ?_
  rw [rest_advance, hc, List.length_drop, List.length_append, List.length_cons]
  omega

theorem readUntil (h : Abreast mark xs ys c d) {stops : List (Option Char)}
    {taken found : List Char} {after : Cursor}
    (hread : Ini.readUntil stops taken c = .ok (found, after))
    (hlength : xs.length < after.rest.length) :
    ∃ other, Ini.readUntil stops taken d = .ok (found, other) ∧ Abreast mark xs ys after other := by
  fun_induction Ini.readUntil stops taken c generalizing d with
  | case1 taken c hc =>
    obtain ⟨ch, cs, ds, hcons, -⟩ := h.exists_cons
    cases hc.symm.trans hcons
  | case2 => cases hread
  | case3 taken c ch cs hc hstop =>
    obtain ⟨ds, hd⟩ := h.of_cons hc
    obtain ⟨rfl, rfl⟩ := Prod.mk.inj (Except.ok.inj hread)
    exact ⟨d, readUntil_stop hd hstop, h⟩
  | case4 taken c _ _ _ hc => exact absurd h.plain (by simp [hc])
  | case5 taken c _ _ _ _ hc => exact absurd h.plain (by simp [hc])
  | case6 taken c ch cs hc hpass hslash ih =>
    obtain ⟨ds, hd⟩ := h.of_cons hc
    have hstep := Nat.lt_of_lt_of_le hlength (length_le_of_readUntil hread)
    rw [readUntil_pass hd hpass hslash]
    exact ih (h.step hstep) hread

theorem pieces (h : Abreast mark xs ys c d) {first : Bool} {taken found : List Char}
    {after : Cursor} (hread : Ini.pieces first taken c = .ok (found, after))
    (hlength : xs.length < after.rest.length) :
    ∃ other, Ini.pieces first taken d = .ok (found, other) ∧ Abreast mark xs ys after other := by
  fun_induction Ini.pieces first taken c generalizing d with
  | case1 first taken c hc =>
    obtain ⟨ch, cs, ds, hcons, -⟩ := h.exists_cons
    cases hc.symm.trans hcons
  | case2 => cases hread
  | case3 first taken c ch cs hc hquote quoted last hquoted ih =>
    obtain ⟨ds, hd⟩ := h.of_cons hc
    have hlast := Nat.lt_of_lt_of_le hlength (length_le_of_pieces hread)
    have hopened := Nat.lt_of_lt_of_le (lt_of_lt_step hlast) (length_le_of_readUntil hquoted)
    obtain ⟨other, hother, hsame⟩ := (h.step hopened).readUntil hquoted (lt_of_lt_step hlast)
    rw [pieces_quoted hd hquote, hother]
    exact ih (hsame.step hlast) hread
  | case4 => cases hread
  | case5 first taken c ch cs hc hquote line last hline =>
    obtain ⟨ds, hd⟩ := h.of_cons hc
    obtain ⟨rfl, rfl⟩ := Prod.mk.inj (Except.ok.inj hread)
    obtain ⟨other, hother, hsame⟩ := h.readUntil hline hlength
    exact ⟨other, by rw [pieces_unquoted hd hquote, hother], hsame⟩

theorem value (h : Abreast mark xs ys c d) (hmark : Text.isBlank mark = false)
    {found : List Char} {after : Cursor} (hread : Ini.value c = .ok (found, after))
    (hlength : xs.length < after.rest.length) :
    ∃ other, Ini.value d = .ok (found, other) ∧ Abreast mark xs ys after other := by
  rw [Ini.value] at hread
  have hskipped := Nat.lt_of_lt_of_le hlength (length_le_of_pieces hread)
  have hstep : xs.length < c.step.rest.length :=
    Nat.lt_of_lt_of_le hskipped (length_advance_le _ _)
  exact ((h.step hstep).skipWhile (by simp [hmark])).pieces hread hlength

theorem headerTurn (h : Abreast mark xs ys c d) (hmark : Text.isBlank mark = false)
    {key : List Char} {t : Turn} (hturn : Ini.headerTurn key c = .ok t)
    (hlength : xs.length < t.after.rest.length) :
    ∃ u, Ini.headerTurn key d = .ok u ∧ SameTurn (Abreast mark xs ys) t u := by
  rw [Ini.headerTurn, Ini.header] at hturn
  split at hturn
  next => cases hturn
  next name last hname =>
    split at hname
    next => cases hname
    next found after hread =>
      obtain ⟨rfl, rfl⟩ := Prod.mk.inj (Except.ok.inj hname)
      obtain rfl := Except.ok.inj hturn
      have hafter := lt_of_lt_skipGap hlength
      have hopened := Nat.lt_of_lt_of_le (lt_of_lt_step hafter) (length_le_of_readUntil hread)
      obtain ⟨other, hother, hsame⟩ := (h.step hopened).readUntil hread (lt_of_lt_step hafter)
      refine ⟨⟨_, key, other.step.skipGap⟩, ?_, rfl, rfl, (hsame.step hafter).skipGap hmark⟩
      rw [Ini.headerTurn, Ini.header, hother]

theorem keyTurn (h : Abreast mark xs ys c d) (hmark : Text.isBlank mark = false) {t : Turn}
    (hturn : Ini.keyTurn c = .ok t) (hlength : xs.length < t.after.rest.length) :
    ∃ u, Ini.keyTurn d = .ok u ∧ SameTurn (Abreast mark xs ys) t u := by
  rw [Ini.keyTurn] at hturn
  split at hturn
  next => cases hturn
  next found after hread =>
    obtain rfl := Except.ok.inj hturn
    obtain ⟨other, hother, hsame⟩ := h.readUntil hread (lt_of_lt_skipGap hlength)
    refine ⟨⟨none, Text.trim found, other.skipGap⟩, ?_, rfl, rfl, hsame.skipGap hmark⟩
    rw [Ini.keyTurn, hother]

/-- A key that cannot be read leads to the end of the text, where nothing is left to differ. -/
theorem indentedTurn (h : Abreast mark xs ys c d) (hmark : Text.isBlank mark = false)
    {key : List Char} {t : Turn} (hturn : Ini.indentedTurn key c = .ok t)
    (hlength : xs.length < t.after.rest.length) :
    ∃ u, Ini.indentedTurn key d = .ok u ∧ SameTurn (Abreast mark xs ys) t u := by
  obtain ⟨ch, cs, ds, hc, hd⟩ := h.exists_cons
  rw [Ini.indentedTurn, hc] at hturn
  rw [Ini.indentedTurn, hd]
  dsimp only at hturn ⊢
  split at hturn
  next hopen =>
    rw [if_pos hopen]
    exact h.headerTurn hmark hturn hlength
  next hopen =>
    rw [if_neg hopen]
    split at hturn
    next hcomment =>
      rw [if_pos hcomment]
      obtain rfl := Except.ok.inj hturn
      exact ⟨_, rfl, rfl, rfl, h.step hlength⟩
    next hcomment =>
      rw [if_neg hcomment]
      split at hturn
      next fault hread =>
        obtain rfl := Except.ok.inj hturn
        have hbefore := lt_of_lt_skipGap hlength
        rw [rest_of_readUntil_error h.plain hread] at hbefore
        exact absurd hbefore (Nat.not_lt_zero _)
      next found after hread =>
        obtain rfl := Except.ok.inj hturn
        obtain ⟨other, hother, hsame⟩ := h.readUntil hread (lt_of_lt_skipGap hlength)
        rw [hother]
        exact ⟨_, rfl, rfl, rfl, hsame.skipGap hmark⟩

theorem turn (h : Abreast mark xs ys c d) (hmark : Text.isBlank mark = false) {key : List Char}
    {ch : Char} {t : Turn} (hturn : Ini.turn key ch c = .ok t)
    (hlength : xs.length < t.after.rest.length) :
    ∃ u, Ini.turn key ch d = .ok u ∧ SameTurn (Abreast mark xs ys) t u := by
  rw [Ini.turn] at hturn
  rw [Ini.turn, h.col]
  split at hturn
  next hcomment =>
    rw [if_pos hcomment]
    split at hturn
    next => cases hturn
    next hcol =>
      rw [if_neg hcol]
      obtain rfl := Except.ok.inj hturn
      have hfeed : mark ≠ '\n' := by
        rintro rfl
        cases hmark
      exact ⟨_, rfl, rfl, rfl, (h.skipLine hfeed (lt_of_lt_skipGap hlength)).skipGap hmark⟩
  next hcomment =>
    rw [if_neg hcomment]
    split at hturn
    next hopen =>
      rw [if_pos hopen]
      exact h.headerTurn hmark hturn hlength
    next hopen =>
      rw [if_neg hopen]
      split at hturn
      next hassigns =>
        rw [if_pos hassigns]
        split at hturn
        next => cases hturn
        next hnamed =>
          rw [if_neg hnamed]
          split at hturn
          next => cases hturn
          next found after hread =>
            obtain rfl := Except.ok.inj hturn
            obtain ⟨other, hother, hsame⟩ := h.value hmark hread (lt_of_lt_skipGap hlength)
            rw [hother]
            exact ⟨_, rfl, rfl, rfl, hsame.skipGap hmark⟩
      next hassigns =>
        rw [if_neg hassigns]
        split at hturn
        next hspace =>
          rw [if_pos hspace]
          exact (h.skipWhile (isSpace_eq_false hmark)).indentedTurn hmark hturn hlength
        next hspace =>
          rw [if_neg hspace]
          split at hturn
          next hblank =>
            rw [if_pos hblank]
            obtain rfl := Except.ok.inj hturn
            exact ⟨_, rfl, rfl, rfl, (h.step (lt_of_lt_skipGap hlength)).skipGap hmark⟩
          next hblank =>
            rw [if_neg hblank]
            exact h.keyTurn hmark hturn hlength

end Abreast

/-- What is reached before two texts differ is reached in both. -/
theorem Reaches.abreast {mark : Char} {xs ys key last : List Char} {c d after : Cursor}
    {items : List Item} (h : Reaches key c items last after) (hsame : Abreast mark xs ys c d)
    (hmark : Text.isBlank mark = false) (hlength : xs.length < after.rest.length) :
    ∃ other, Reaches key d items last other ∧ Abreast mark xs ys after other := by
  induction h generalizing d with
  | here key c => exact ⟨d, .here key d, hsame⟩
  | @turn key last c after ch cs t items hc hturn hrest ih =>
    obtain ⟨ds, hd⟩ := hsame.of_cons hc
    have hnext : xs.length < t.after.rest.length := Nat.lt_of_lt_of_le hlength hrest.length_le
    obtain ⟨u, hother, hitem, hkey, hplaces⟩ := hsame.turn hmark hturn hnext
    obtain ⟨other, hreach, hafter⟩ := ih hplaces hlength
    rw [hitem]
    rw [hkey] at hreach
    exact ⟨other, .turn hd hother hreach, hafter⟩

end TunnelFleet.Ini
