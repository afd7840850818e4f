import TunnelFleet.Proofs.Ini.Reader

namespace TunnelFleet.Ini

def entryLine (entry : String × String) : List Char :=
  entry.1.toList ++ ' ' :: '=' :: ' ' :: entry.2.toList ++ ['\n']

def Section.lines (part : Section) : List Char :=
  '\n' :: '[' :: part.name.toList ++ ']' :: '\n' :: part.entries.flatMap entryLine

def Document.lines (doc : Document) : List Char :=
  doc.general.flatMap entryLine ++ doc.sections.flatMap Section.lines

def Document.text (doc : Document) : String :=
  String.ofList doc.lines

def ArePlain (entries : List (String × String)) : Prop :=
  ∀ entry ∈ entries, IsKey entry.1.toList ∧ IsValue entry.2.toList

/-- Keys, values and names are all read as they stand. -/
structure Document.IsPlain (doc : Document) : Prop where
  general : ArePlain doc.general
  sections : ∀ part ∈ doc.sections, IsName part.name.toList ∧ ArePlain part.entries

def entryItem (entry : String × String) : Item :=
  .entry entry.1 entry.2

def Section.items (part : Section) : List Item :=
  .header part.name :: part.entries.map entryItem

def Document.items (doc : Document) : List Item :=
  doc.general.map entryItem ++ doc.sections.flatMap Section.items

theorem ofItems_entries (entries : List (String × String)) (items : List Item) :
    Document.ofItems (entries.map entryItem ++ items) =
      ⟨entries ++ (Document.ofItems items).general, (Document.ofItems items).sections⟩ := by
  induction entries with
  | nil => rfl
  | cons entry rest ih =>
    rw [List.map_cons, List.cons_append, entryItem, Document.ofItems, ih]
    rfl

theorem ofItems_sections (sections : List Section) :
    Document.ofItems (sections.flatMap Section.items) = ⟨[], sections⟩ := by
  induction sections with
  | nil => rfl
  | cons part rest ih =>
    rw [List.flatMap_cons, Section.items, List.cons_append, Document.ofItems, ofItems_entries, ih,
      List.append_nil]

theorem Document.ofItems_items (doc : Document) : Document.ofItems doc.items = doc := by
  rw [items, ofItems_entries, ofItems_sections, List.append_nil]

variable {entries : List (String × String)} {rest : List Char} {items : List Item}

theorem exists_head_line {entry : String × String} (h : IsKey entry.1.toList) (rest : List Char) :
    ∃ ch cs, entryLine entry ++ rest = ch :: cs ∧ Text.isBlank ch = false := by
  obtain ⟨ch, cs, hcons⟩ := List.exists_cons_of_ne_nil h.ne_nil
  refine ⟨ch, cs ++ ' ' :: '=' :: ' ' :: entry.2.toList ++ ['\n'] ++ rest, ?_, h.head ch ?_⟩
  · rw [entryLine, hcons]
    rfl
  · rw [hcons]
    rfl

theorem isFlush_entries (h : ArePlain entries) (hrest : IsFlush rest) :
    IsFlush (entries.flatMap entryLine ++ rest) := by
  cases entries with
  | nil => exact hrest
  | cons entry entries =>
    obtain ⟨ch, cs, hcons, hblank⟩ :=
      exists_head_line (h entry List.mem_cons_self).1 (entries.flatMap entryLine ++ rest)
    rw [List.flatMap_cons, List.append_assoc, hcons]
    intro c hc
    obtain rfl := Option.some.inj hc
    exact isSpace_eq_false hblank

theorem reads_line {entry : String × String} (hkey : IsKey entry.1.toList)
    (hvalue : IsValue entry.2.toList) (hflush : IsFlush rest) (h : Reads (behindGap rest) items) :
    Reads (behindGap (entryLine entry ++ rest)) (entryItem entry :: items) := by
  have hline : entryLine entry ++ rest =
      entry.1.toList ++ ' ' :: '=' :: ' ' :: entry.2.toList ++ '\n' :: rest := by simp [entryLine]
  have hreads := reads_entry hkey hvalue hflush h
  rw [String.ofList_toList, String.ofList_toList, ← hline] at hreads
  obtain ⟨ch, cs, hcons, hblank⟩ := exists_head_line hkey rest
  rw [hcons] at hreads
  rw [hcons, behindGap_cons hblank]
  exact hreads

theorem reads_entries (h : ArePlain entries) (hflush : IsFlush rest)
    (hrest : Reads (behindGap rest) items) :
    Reads (behindGap (entries.flatMap entryLine ++ rest)) (entries.map entryItem ++ items) := by
  induction entries with
  | nil => exact hrest
  | cons entry entries ih =>
    obtain ⟨⟨hkey, hvalue⟩, hothers⟩ := List.forall_mem_cons.mp h
    rw [List.flatMap_cons, List.append_assoc]
    exact reads_line hkey hvalue (isFlush_entries hothers hflush) (ih hothers)

theorem isFlush_bracket (cs : List Char) : IsFlush ('[' :: cs) := by
  intro c hc
  obtain rfl := Option.some.inj hc
  decide

theorem sectionLines_cons (part : Section) (rest : List Section) :
    (part :: rest).flatMap Section.lines = '\n' :: '[' :: (part.name.toList ++ ']' :: '\n' ::
      (part.entries.flatMap entryLine ++ rest.flatMap Section.lines)) := by
  simp [Section.lines]

theorem isFlush_sections (sections : List Section) : IsFlush (sections.flatMap Section.lines) := by
  cases sections with
  | nil => exact nofun
  | cons part rest =>
    rw [sectionLines_cons]
    intro c hc
    obtain rfl := Option.some.inj hc
    decide

theorem reads_sections {sections : List Section}
    (h : ∀ part ∈ sections, IsName part.name.toList ∧ ArePlain part.entries) :
    Reads (behindGap (sections.flatMap Section.lines)) (sections.flatMap Section.items) := by
  induction sections with
  | nil => exact reads_nil
  | cons part rest ih =>
    obtain ⟨⟨hname, hentries⟩, hothers⟩ := List.forall_mem_cons.mp h
    have hreads := reads_header hname (isFlush_entries hentries (isFlush_sections rest))
      (reads_entries hentries (isFlush_sections rest) (ih hothers))
    rw [String.ofList_toList] at hreads
    rw [sectionLines_cons, behindGap_newline (isFlush_bracket _), behindGap_cons (by decide)]
    exact hreads

theorem Document.ofText_text {doc : Document} (h : doc.IsPlain) : ofText doc.text = .ok doc := by
  have hreads := reads_entries h.general (isFlush_sections doc.sections) (reads_sections h.sections)
  have hlines : Reads doc.lines doc.items := by
    rw [Document.lines, Document.items]
    cases hgeneral : doc.general with
    | cons entry entries =>
      obtain ⟨ch, cs, hcons, hblank⟩ := exists_head_line
        (h.general entry (by simp [hgeneral])).1
        (entries.flatMap entryLine ++ doc.sections.flatMap Section.lines)
      rw [hgeneral, List.flatMap_cons, List.append_assoc, hcons, behindGap_cons hblank] at hreads
      rw [List.flatMap_cons, List.append_assoc, hcons]
      exact hreads
    | nil =>
      rw [hgeneral] at hreads
      cases hsections : doc.sections with
      | nil => exact reads_nil
      | cons part rest =>
        rw [hsections, List.flatMap_nil, List.nil_append, sectionLines_cons,
          behindGap_newline (isFlush_bracket _)] at hreads
        rw [List.flatMap_nil, List.nil_append, sectionLines_cons]
        exact reads_newline hreads
  have hitems : Ini.items doc.text = .ok doc.items := by
    refine hlines _ ?_
    rw [Cursor.ofText, Cursor.rest_arrive, text, String.toList_ofList]
  rw [ofText, hitems]
  exact congrArg Except.ok doc.ofItems_items

end TunnelFleet.Ini
