import TunnelFleet.Csv

namespace TunnelFleet.Csv

/-- The texts that stand for a field: the field itself if nothing in it is special, and always the
field in quotes. -/
inductive IsCell (field : String) : List Char → Prop
  | bare (h : field.toList.any isSpecial = false) : IsCell field field.toList
  | quoted : IsCell field ('"' :: doubled field.toList ++ ['"'])

inductive IsLine : List String → List Char → Prop
  | single {field : String} {cell : List Char} (h : IsCell field cell) : IsLine [field] cell
  | cons {field : String} {cell line : List Char} {fields : List String} (h : IsCell field cell)
      (rest : IsLine fields line) : IsLine (field :: fields) (cell ++ ',' :: line)

inductive IsLineEnd : List Char → Prop
  | feed : IsLineEnd ['\n']
  | carriage : IsLineEnd ['\r']
  | both : IsLineEnd ['\r', '\n']

/-- The texts of some records. Blank lines may stand anywhere between them, each line has an end of
its own, and the last record may do without one. -/
inductive IsSheet : List (List String) → List Char → Prop
  | nil : IsSheet [] []
  | blank {records : List (List String)} {ending text : List Char} (hend : IsLineEnd ending)
      (rest : IsSheet records text) : IsSheet records (ending ++ text)
  | record {fields : List String} {records : List (List String)} {line ending text : List Char}
      (hline : IsLine fields line) (hend : IsLineEnd ending) (rest : IsSheet records text) :
      IsSheet (fields :: records) (line ++ ending ++ text)
  | unended {fields : List String} {line : List Char} (hline : IsLine fields line) :
      IsSheet [fields] line

theorem isCell_fieldChars (field : String) : IsCell field (fieldChars field) := by
  rw [fieldChars]
  split
  next => exact .quoted
  next h => exact .bare (Bool.eq_false_iff.mpr h)

theorem isLine_intercalate (field : String) (fields : List String) :
    IsLine (field :: fields) ([','].intercalate ((field :: fields).map fieldChars)) := by
  induction fields generalizing field with
  | nil => simpa using IsLine.single (isCell_fieldChars field)
  | cons second rest ih =>
    have hline := IsLine.cons (isCell_fieldChars field) (ih second)
    simpa [List.intercalate_cons_cons] using hline

theorem isSheet_recordChars {records : List (List String)} (h : ∀ fields ∈ records, fields ≠ []) :
    IsSheet records (records.map recordChars).flatten := by
  induction records with
  | nil => exact .nil
  | cons fields rest ih =>
    obtain ⟨hfields, hrest⟩ := List.forall_mem_cons.mp h
    obtain ⟨first, others, rfl⟩ := List.exists_cons_of_ne_nil hfields
    exact .record (isLine_intercalate first others) .feed (ih hrest)

end TunnelFleet.Csv
