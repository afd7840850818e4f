import Mathlib.Data.List.DropRight
import Mathlib.Data.List.TakeWhile
import TunnelFleet.Proofs.Ini.Passage

namespace TunnelFleet.Ini

open Cursor

/-- What the left part of a line says that is cut: a comment nothing, and a value what is left of
it. -/
inductive Remnant (key : List Char) (col : Nat) : List Char → List Item → Prop
  | comment {c : Char} {cs : List Char} (hmark : c = ';' ∨ c = '#') (hcol : col ≤ 1)
      (hline : '\n' ∉ cs) : Remnant key col (c :: cs) []
  | value {c : Char} {cs : List Char} (hmark : c = '=' ∨ c = ':') (hkey : key ≠ [])
      (hline : ArePassed lineStops cs)
      (hunquoted : ∀ q ∈ (Text.trimLeft cs).head?, ¬ (q = '"' ∨ q = '\'')) :
      Remnant key col (c :: cs) [.entry (String.ofList key) (String.ofList (Text.trim cs))]

theorem readUntil_end {stops : List (Option Char)} {passed : List Char} {c : Cursor}
    (hc : c.rest = passed) (hpassed : ArePassed stops passed) (hend : none ∈ stops)
    (taken : List Char) :
    ∃ after, readUntil stops taken c = .ok (taken.reverse ++ passed, after) ∧ after.rest = [] := by
  induction passed generalizing c taken with
  | nil => exact ⟨c, by rw [readUntil_nil hc, if_pos hend, List.append_nil], hc⟩
  | cons p passed ih =>
    obtain ⟨⟨hp, hslash⟩, hrest⟩ := List.forall_mem_cons.mp hpassed
    have hstep : c.step.rest = passed := by rw [rest_step, hc, List.tail_cons]
    obtain ⟨after, hafter, hplace⟩ := ih hstep hrest (p :: taken)
    refine ⟨after, ?_, hplace⟩
    rw [readUntil_pass hc hp hslash, hafter]
    simp

theorem dropWhile_eq_trimLeft {cs : List Char} (h : ArePassed lineStops cs) :
    (cs.dropWhile fun ch => Text.isBlank ch && !isLineEnd ch) = Text.trimLeft cs := by
  induction cs with
  | nil => rfl
  | cons ch cs ih =>
    obtain ⟨⟨hstop, -⟩, hrest⟩ := List.forall_mem_cons.mp h
    have hend : isLineEnd ch = false := by
      simpa [lineStops, isLineEnd] using hstop
    rw [Text.trimLeft, List.dropWhile_cons, List.dropWhile_cons, hend, Bool.not_false,
      Bool.and_true, ih hrest, Text.trimLeft]

theorem value_end {c : Cursor} {ch : Char} {cs : List Char} (hc : c.rest = ch :: cs)
    (hline : ArePassed lineStops cs)
    (hunquoted : ∀ q ∈ (Text.trimLeft cs).head?, ¬ (q = '"' ∨ q = '\'')) :
    ∃ after, value c = .ok (Text.trim cs, after) ∧ after.rest = [] := by
  have hskipped : (c.step.skipWhile fun ch => Text.isBlank ch && !isLineEnd ch).rest =
      Text.trimLeft cs := by
    rw [rest_skipWhile, rest_step, hc, List.tail_cons, dropWhile_eq_trimLeft hline]
  rw [Ini.value]
  cases htrimmed : Text.trimLeft cs with
  | nil =>
    rw [htrimmed] at hskipped
    exact ⟨_, by rw [pieces_nil hskipped, Text.trim, htrimmed]; rfl, hskipped⟩
  | cons q qs =>
    rw [htrimmed] at hskipped hunquoted
    have hpassed : ArePassed lineStops (q :: qs) := fun x hx =>
      hline x ((List.dropWhile_sublist _).mem (htrimmed ▸ hx))
    obtain ⟨after, hread, hafter⟩ := readUntil_end hskipped hpassed (by decide) []
    have htwice : Text.trim (q :: qs) = Text.trim cs := by
      rw [← htrimmed, Text.trim, Text.trim, Text.trimLeft, Text.trimLeft, List.dropWhile_idempotent]
    refine ⟨after, ?_, hafter⟩
    rw [pieces_unquoted hskipped (hunquoted q rfl), hread]
    simp [htwice]

namespace Remnant

variable {key left : List Char} {col : Nat} {last : List Item}

theorem exists_cons (h : Remnant key col left last) :
    ∃ ch cs, left = ch :: cs ∧ Text.isBlank ch = false := by
  cases h with
  | comment hmark => exact ⟨_, _, rfl, by rcases hmark with rfl | rfl <;> decide⟩
  | value hmark => exact ⟨_, _, rfl, by rcases hmark with rfl | rfl <;> decide⟩

/-- Read where nothing follows it, what is left says just that. -/
theorem itemsFrom_eq {c : Cursor} (h : Remnant key c.col left last) (hc : c.rest = left) :
    itemsFrom key c = .ok last := by
  cases h with
  | @comment ch cs hmark hcol hline =>
    have hall : ∀ x ∈ ch :: cs, (x != '\n') = true := by
      refine List.forall_mem_cons.mpr ⟨by rcases hmark with rfl | rfl <;> decide, ?_⟩
      exact fun x hx => bne_iff_ne.mpr fun heq => hline (heq ▸ hx)
    have hturn : turn key ch c = .ok ⟨none, key, c.skipLine.skipGap⟩ := by
      rw [turn, if_pos hmark, if_neg (by omega)]
    refine itemsFrom_turn hc hturn (itemsFrom_nil ?_)
    rw [rest_skipGap, skipLine, rest_advance, hc, List.takeWhile_eq_self_iff.mpr hall,
      List.drop_of_length_le (Nat.le_succ _)]
    rfl
  | @value ch cs hmark hkey hline hunquoted =>
    obtain ⟨after, hvalue, hafter⟩ := value_end hc hline hunquoted
    have hturn : turn key ch c = .ok
        ⟨some (.entry (String.ofList key) (String.ofList (Text.trim cs))), [], after.skipGap⟩ := by
      rw [turn, if_neg (by rcases hmark with rfl | rfl <;> decide),
        if_neg (by rcases hmark with rfl | rfl <;> decide), if_pos hmark, if_neg hkey, hvalue]
    refine itemsFrom_turn hc hturn (itemsFrom_nil ?_)
    rw [rest_skipGap, hafter]
    rfl

end Remnant

/-- A text that is cut within a line to which the reader comes turn by turn. -/
structure Cut (text : String) where
  head : List Char
  left : List Char
  tail : List Char
  key : List Char
  place : Cursor
  above : List Item
  last : List Item
  text_eq : text.toList = head ++ (left ++ tail)
  reaches : Reaches [] (.ofText text) above key place
  rest_eq : place.rest = left ++ tail
  remnant : Remnant key place.col left last

namespace Cut

variable {text : String} (cut : Cut text)

def shown : String :=
  String.ofList (cut.head ++ cut.left)

theorem ofText_shown (hplain : '\\' ∉ text.toList) :
    Document.ofText cut.shown = .ok (Document.ofItems (cut.above ++ cut.last)) := by
  obtain ⟨ch, cs, hleft, hblank⟩ := cut.remnant.exists_cons
  have htext : text.toList = cut.head ++ ch :: (cs ++ cut.tail) := by
    rw [cut.text_eq, hleft, List.cons_append]
  have hrest : cut.place.rest = ch :: (cs ++ cut.tail) := by
    rw [cut.rest_eq, hleft, List.cons_append]
  have hsame : Abreast ch (cs ++ cut.tail) cs (Cursor.ofText text) (Cursor.ofText cut.shown) := by
    rw [Cursor.ofText, Cursor.ofText, shown, String.toList_ofList, htext, hleft]
    exact Abreast.arrive (htext ▸ hplain)
  obtain ⟨other, hreach, hother⟩ := cut.reaches.abreast hsame hblank
    (by rw [hrest, List.length_cons]; exact Nat.lt_succ_self _)
  -- before the cut line both texts are at the same character, so one has just that line ahead
  obtain ⟨ahead, hplace, hend⟩ := hother.rest
  obtain rfl : ahead = [] := by
    have hlength := congrArg List.length (hrest.symm.trans hplace)
    rw [List.length_append, List.length_cons] at hlength
    exact List.eq_nil_of_length_eq_zero (by omega)
  have hremnant : Remnant cut.key other.col cut.left cut.last := hother.col ▸ cut.remnant
  have hitems := hreach.itemsFrom_eq
  rw [hremnant.itemsFrom_eq (hend.trans hleft.symm)] at hitems
  rw [Document.ofText, items, hitems]
  rfl

/-- What a whole text says begins with what is said above the cut. -/
theorem exists_ofText {doc : Document} (hdoc : Document.ofText text = .ok doc) :
    ∃ more, doc = Document.ofItems (cut.above ++ more) := by
  rw [Document.ofText, items, cut.reaches.itemsFrom_eq] at hdoc
  cases hmore : itemsFrom cut.key cut.place with
  | error fault =>
    rw [hmore] at hdoc
    cases hdoc
  | ok more =>
    rw [hmore] at hdoc
    exact ⟨more, (Except.ok.inj hdoc).symm⟩

end Cut

end TunnelFleet.Ini
