import TunnelFleet.Csv
import TunnelFleet.Proofs.Csv.Layout

namespace TunnelFleet.Csv

/-- Where a reader stands, apart from its place in the text: its phase, the field and the record
under way, newest first, and the records that are complete, newest first. -/
structure Scan.At (s : Scan) (phase : Phase) (chars : List Char) (fields : List String)
    (done : List (List String)) : Prop where
  phase_eq : s.phase = phase
  chars_eq : s.chars = chars
  fields_eq : s.fields = fields
  done_eq : s.done.map Record.fields = done

def Phase.IsOpen (p : Phase) : Prop :=
  p = .field ∨ p = .bare ∨ p = .quote

theorem Phase.ne_quoted {p : Phase} (h : p.IsOpen ∨ p = .record) : p ≠ .quoted := by
  rcases h with (rfl | rfl | rfl) | rfl <;> decide

theorem Phase.IsOpen.ne_record {p : Phase} (h : p.IsOpen) : p ≠ .record := by
  rcases h with rfl | rfl | rfl <;> decide

namespace Scan

variable {s : Scan} {phase : Phase} {chars : List Char} {fields : List String}
  {done : List (List String)} {c : Char}

theorem at_start (byte : Nat) : (start byte).At .record [] [] [] :=
  ⟨rfl, rfl, rfl, rfl⟩

theorem At.pass (h : s.At phase chars fields done) (c : Char) :
    (s.pass c).At phase chars fields done :=
  ⟨h.phase_eq, h.chars_eq, h.fields_eq, h.done_eq⟩

theorem At.withPhase (h : s.At phase chars fields done) (next : Phase) :
    ({ s with phase := next } : Scan).At next chars fields done :=
  ⟨rfl, h.chars_eq, h.fields_eq, h.done_eq⟩

theorem At.add (h : s.At phase chars fields done) (next : Phase) (c : Char) :
    (s.add next c).At next (c :: chars) fields done :=
  ⟨rfl, congrArg (c :: ·) h.chars_eq, h.fields_eq, h.done_eq⟩

theorem At.endField (h : s.At phase chars fields done) :
    s.endField.At .field [] (String.ofList chars.reverse :: fields) done := by
  obtain ⟨-, rfl, rfl, rfl⟩ := h
  exact ⟨rfl, rfl, rfl, rfl⟩

theorem At.endRecord (h : s.At phase chars fields done) :
    s.endRecord.At .record [] [] ((String.ofList chars.reverse :: fields).reverse :: done) := by
  obtain ⟨-, rfl, rfl, rfl⟩ := h
  exact ⟨rfl, rfl, rfl, rfl⟩

theorem At.step_bareChar (h : s.At phase chars fields done) (hq : phase ≠ .quoted) (hc : c ≠ '"')
    (hend : phase = .record → c ≠ '\n' ∧ c ≠ '\r') : s.step c = (s.pass c).bareChar c := by
  obtain ⟨rfl, -, -, -⟩ := h
  cases hp : s.phase with
  | record =>
    obtain ⟨hn, hr⟩ := hend hp
    simp [step, hp, fieldChar, hc, hn, hr]
  | field => simp [step, hp, fieldChar, hc]
  | bare => simp [step, hp]
  | quoted => exact absurd hp hq
  | quote => simp [step, hp, hc]

theorem At.comma (h : s.At phase chars fields done) (hq : phase ≠ .quoted) :
    (s.step ',').At .field [] (String.ofList chars.reverse :: fields) done := by
  rw [h.step_bareChar hq (by decide) (fun _ => by decide)]
  exact (h.pass ',').endField

theorem At.lineEnd (h : s.At phase chars fields done) (hp : phase.IsOpen)
    (hc : c = '\n' ∨ c = '\r') :
    (s.step c).At .record [] [] ((String.ofList chars.reverse :: fields).reverse :: done) := by
  have hquote : c ≠ '"' := by rcases hc with rfl | rfl <;> decide
  have hcomma : c ≠ ',' := by rcases hc with rfl | rfl <;> decide
  rw [h.step_bareChar (Phase.ne_quoted (.inl hp)) hquote
    (fun hrecord => absurd hrecord hp.ne_record), bareChar, if_neg hcomma, if_pos hc]
  exact (h.pass c).endRecord

theorem At.plain (h : s.At phase chars fields done) (hq : phase ≠ .quoted)
    (hc : isSpecial c = false) : (s.step c).At .bare (c :: chars) fields done := by
  simp only [isSpecial, Bool.or_eq_false_iff, beq_eq_false_iff_ne] at hc
  obtain ⟨⟨⟨hcomma, hquote⟩, hr⟩, hn⟩ := hc
  rw [h.step_bareChar hq hquote (fun _ => ⟨hn, hr⟩), bareChar, if_neg hcomma,
    if_neg (by simp [hn, hr])]
  exact (h.pass c).add .bare c

theorem At.quoteOpens (h : s.At phase [] fields done) (hp : phase = .record ∨ phase = .field) :
    (s.step '"').At .quoted [] fields done := by
  have hstep : s.step '"' = { s.pass '"' with phase := .quoted } := by
    rcases hp with hp | hp <;> simp [step, h.phase_eq.trans hp, fieldChar]
  rw [hstep]
  exact (h.pass '"').withPhase .quoted

theorem At.quoteCloses (h : s.At .quoted chars fields done) :
    (s.step '"').At .quote chars fields done := by
  have hstep : s.step '"' = { s.pass '"' with phase := .quote } := by simp [step, h.phase_eq]
  rw [hstep]
  exact (h.pass '"').withPhase .quote

theorem At.quoteDoubled (h : s.At .quote chars fields done) :
    (s.step '"').At .quoted ('"' :: chars) fields done := by
  have hstep : s.step '"' = (s.pass '"').add .quoted '"' := by simp [step, h.phase_eq]
  rw [hstep]
  exact (h.pass '"').add .quoted '"'

theorem At.inQuotes (h : s.At .quoted chars fields done) (hc : c ≠ '"') :
    (s.step c).At .quoted (c :: chars) fields done := by
  have hstep : s.step c = (s.pass c).add .quoted c := by simp [step, h.phase_eq, hc]
  rw [hstep]
  exact (h.pass c).add .quoted c

theorem At.foldl_plain {cs : List Char} (h : s.At phase chars fields done) (hq : phase ≠ .quoted)
    (hcs : cs.any isSpecial = false) :
    ∃ next, (cs.foldl step s).At next (cs.reverse ++ chars) fields done ∧
      (next = phase ∨ next = .bare) := by
  induction cs generalizing s phase chars with
  | nil => exact ⟨phase, h, .inl rfl⟩
  | cons c cs ih =>
    rw [List.any_cons, Bool.or_eq_false_iff] at hcs
    obtain ⟨next, hnext, hphase⟩ := ih (h.plain hq hcs.1) (by decide) hcs.2
    refine ⟨next, ?_, .inr (hphase.elim id id)⟩
    simpa using hnext

theorem At.foldl_doubled (h : s.At .quoted chars fields done) (cs : List Char) :
    ((doubled cs).foldl step s).At .quoted (cs.reverse ++ chars) fields done := by
  induction cs generalizing s chars with
  | nil => exact h
  | cons c cs ih =>
    by_cases hc : c = '"'
    · subst hc
      simpa [doubled] using ih h.quoteCloses.quoteDoubled
    · simpa [doubled, hc] using ih (h.inQuotes hc)

/-- However a field is written, it is read as it is. Only an empty one leaves the reader where the
field began. -/
theorem At.foldl_cell {field : String} {cell : List Char} (h : s.At phase [] fields done)
    (hp : phase = .record ∨ phase = .field) (hcell : IsCell field cell) :
    ∃ next, (cell.foldl step s).At next field.toList.reverse fields done ∧
      (next.IsOpen ∨ next = .record) ∧ (next = .record → phase = .record) := by
  cases hcell with
  | bare hs =>
    have hq : phase ≠ .quoted := by rcases hp with rfl | rfl <;> decide
    obtain ⟨next, hread, hnext⟩ := h.foldl_plain hq hs
    rw [List.append_nil] at hread
    refine ⟨next, hread, ?_, ?_⟩
    · rcases hnext with rfl | rfl
      · exact hp.symm.imp .inl id
      · exact .inl (.inr (.inl rfl))
    · rintro rfl
      rcases hnext with hnext | hnext
      · exact hnext.symm
      · cases hnext
  | quoted =>
    have hread := ((h.quoteOpens hp).foldl_doubled field.toList).quoteCloses
    refine ⟨.quote, ?_, .inl (.inr (.inr rfl)), nofun⟩
    simpa [List.foldl_append] using hread

/-- A line that does not begin a record always leaves a field under way. -/
theorem At.foldl_fields {given : List String} {line : List Char} (h : s.At .field [] fields done)
    (hline : IsLine given line) :
    ∃ next chars before, (line.foldl step s).At next chars before done ∧ next.IsOpen ∧
      (String.ofList chars.reverse :: before).reverse = fields.reverse ++ given := by
  induction hline generalizing s fields with
  | @single field cell hcell =>
    obtain ⟨next, hread, hopen, hrecord⟩ := h.foldl_cell (.inr rfl) hcell
    refine ⟨next, field.toList.reverse, fields, hread, ?_, by simp⟩
    exact hopen.resolve_right fun hr => by cases hrecord hr
  | @cons field cell line given hcell _ ih =>
    obtain ⟨next, hread, hopen, -⟩ := h.foldl_cell (.inr rfl) hcell
    obtain ⟨last, chars, before, hrest, hlast, heq⟩ := ih (hread.comma (Phase.ne_quoted hopen))
    refine ⟨last, chars, before, ?_, hlast, by simpa using heq⟩
    rwa [List.foldl_append, List.foldl_cons]

theorem At.foldl_line {given : List String} {line : List Char} (h : s.At .record [] [] done)
    (hline : IsLine given line) (hgiven : 2 ≤ given.length) :
    ∃ next chars before, (line.foldl step s).At next chars before done ∧ next.IsOpen ∧
      (String.ofList chars.reverse :: before).reverse = given := by
  cases hline with
  | single => simp at hgiven
  | @cons field cell line rest hcell hrest =>
    obtain ⟨next, hread, hopen, -⟩ := h.foldl_cell (.inl rfl) hcell
    obtain ⟨last, chars, before, hfields, hlast, heq⟩ :=
      (hread.comma (Phase.ne_quoted hopen)).foldl_fields hrest
    refine ⟨last, chars, before, ?_, hlast, by simpa using heq⟩
    rwa [List.foldl_append, List.foldl_cons]

theorem At.blank (h : s.At .record [] [] done) (hc : c = '\n' ∨ c = '\r') :
    (s.step c).At .record [] [] done := by
  have hstep : s.step c = s.pass c := by simp [step, h.phase_eq, hc]
  rw [hstep]
  exact h.pass c

theorem At.foldl_blank {ending : List Char} (h : s.At .record [] [] done)
    (hend : IsLineEnd ending) : (ending.foldl step s).At .record [] [] done := by
  cases hend with
  | feed => exact h.blank (.inl rfl)
  | carriage => exact h.blank (.inr rfl)
  | both => exact (h.blank (.inr rfl)).blank (.inl rfl)

/-- Of a carriage return and a line feed the first ends the record, and the second is blank. -/
theorem At.foldl_lineEnd {ending : List Char} (h : s.At phase chars fields done) (hp : phase.IsOpen)
    (hend : IsLineEnd ending) : (ending.foldl step s).At .record [] []
      ((String.ofList chars.reverse :: fields).reverse :: done) := by
  cases hend with
  | feed => exact h.lineEnd hp (.inl rfl)
  | carriage => exact h.lineEnd hp (.inr rfl)
  | both => exact (h.lineEnd hp (.inr rfl)).blank (.inl rfl)

theorem At.finish_record (h : s.At .record chars fields done) :
    s.finish.map Record.fields = done.reverse := by
  rw [finish, h.phase_eq, List.map_reverse, h.done_eq]

theorem At.finish_open (h : s.At phase chars fields done) (hp : phase.IsOpen) :
    s.finish.map Record.fields =
      done.reverse ++ [(String.ofList chars.reverse :: fields).reverse] := by
  have hfinish : s.finish = s.endRecord.done.reverse := by
    rw [finish, h.phase_eq]
    rcases hp with rfl | rfl | rfl <;> rfl
  rw [hfinish, List.map_reverse, h.endRecord.done_eq, List.reverse_cons]

theorem At.foldl_sheet {lines : List (List String)} {text : List Char} (h : s.At .record [] [] done)
    (hsheet : IsSheet lines text) (hlines : ∀ fields ∈ lines, 2 ≤ fields.length) :
    (text.foldl step s).finish.map Record.fields = done.reverse ++ lines := by
  induction hsheet generalizing s done with
  | nil => rw [List.append_nil]; exact h.finish_record
  | blank hend _ ih =>
    rw [List.foldl_append]
    exact ih (h.foldl_blank hend) hlines
  | @record given lines line ending text hline hend _ ih =>
    obtain ⟨hgiven, hrest⟩ := List.forall_mem_cons.mp hlines
    obtain ⟨next, chars, before, hread, hopen, heq⟩ := h.foldl_line hline hgiven
    have hended := hread.foldl_lineEnd hopen hend
    rw [heq] at hended
    rw [List.foldl_append, List.foldl_append, ih hended hrest, List.reverse_cons, List.append_assoc,
      List.singleton_append]
  | @unended given line hline =>
    obtain ⟨next, chars, before, hread, hopen, heq⟩ :=
      h.foldl_line hline (hlines given List.mem_cons_self)
    rw [hread.finish_open hopen, heq]

end Scan

/-- The records of a text do not depend on its layout, unless a byte order mark seems to stand before
them. -/
theorem map_fields_records_of_isSheet {lines : List (List String)} {text : String}
    (hsheet : IsSheet lines text.toList) (hlines : ∀ fields ∈ lines, 2 ≤ fields.length)
    (hmark : text.toList.head? ≠ some '\uFEFF') : (records text).map Record.fields = lines := by
  have hrecords : records text = (text.toList.foldl Scan.step (.start 0)).finish := by
    rw [records]
    split
    next heq => exact absurd (by rw [heq]; rfl) hmark
    next => rfl
  rw [hrecords, (Scan.at_start 0).foldl_sheet hsheet hlines]
  rfl

/-- Written records are read back, unless a byte order mark seems to stand before them. -/
theorem map_fields_records {lines : List (List String)}
    (hlines : ∀ fields ∈ lines, 2 ≤ fields.length)
    (hmark : ((lines.map recordChars).flatten).head? ≠ some '\uFEFF') :
    (records (String.ofList (lines.map recordChars).flatten)).map Record.fields = lines := by
  have hne : ∀ fields ∈ lines, fields ≠ [] := by
    intro fields hfields hnil
    simpa [hnil] using hlines fields hfields
  refine map_fields_records_of_isSheet ?_ hlines ?_
  · rw [String.toList_ofList]
    exact isSheet_recordChars hne
  · rwa [String.toList_ofList]

end TunnelFleet.Csv
