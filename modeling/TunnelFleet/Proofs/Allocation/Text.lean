import TunnelFleet.Allocation.Text
import TunnelFleet.Proofs.Csv.Reader
import TunnelFleet.Proofs.Csv.UnixLines

namespace TunnelFleet

namespace Allocation

/-- A row as it comes back from a written table: without the carriage returns that stand directly
before a line feed. -/
def unix (a : Allocation) : Allocation where
  nodeKey := Text.unix a.nodeKey
  routerKey := Text.unix a.routerKey
  nodeName := Text.unix a.nodeName
  nodeIP := Text.unix a.nodeIP
  podNet := Text.unix a.podNet

structure IsUnix (a : Allocation) : Prop where
  nodeKey : Text.IsUnix a.nodeKey
  routerKey : Text.IsUnix a.routerKey
  nodeName : Text.IsUnix a.nodeName
  nodeIP : Text.IsUnix a.nodeIP
  podNet : Text.IsUnix a.podNet

theorem unix_eq_self {a : Allocation} (h : a.IsUnix) : a.unix = a := by
  cases a
  simp [unix, Text.unix_eq_self h.nodeKey, Text.unix_eq_self h.routerKey,
    Text.unix_eq_self h.nodeName, Text.unix_eq_self h.nodeIP, Text.unix_eq_self h.podNet]

theorem unix_eq_self_iff {a : Allocation} :
    a.unix = a ↔ ∀ field ∈ a.fields, Text.IsUnix field := by
  cases a
  simp [unix, fields, Text.unix_eq_self_iff]

end Allocation

namespace Table

def lines (t : Table) : List (List String) :=
  Allocation.columns :: t.rows.map Allocation.fields

def unix (t : Table) : Table :=
  ⟨t.rows.map Allocation.unix⟩

theorem two_le_length_of_mem_lines {t : Table} {fields : List String} (h : fields ∈ t.lines) :
    2 ≤ fields.length := by
  rcases List.mem_cons.mp h with rfl | h
  · decide
  · obtain ⟨row, -, rfl⟩ := List.mem_map.mp h
    exact Nat.le_of_ble_eq_true rfl

theorem lines_unix (t : Table) : t.unix.lines = t.lines.map (List.map Text.unix) := by
  have hcolumns : Allocation.columns.map Text.unix = Allocation.columns := by decide
  simp only [lines, unix, List.map_cons, hcolumns, List.map_map]
  rfl

theorem text_eq (t : Table) :
    t.text = String.ofList (t.unix.lines.map Csv.recordChars).flatten := by
  rw [text, lines_unix, ← Csv.unixLines_records]
  rfl

theorem ofRecord_fields (index : Nat) {record : Csv.Record} {a : Allocation}
    (h : record.fields = a.fields) : ofRecord Allocation.columns index record = .ok a := by
  have hcolumns : columnFault? Allocation.columns = none := by decide
  have hwidth : a.fields.length = Allocation.columns.length := rfl
  have hrow : row Allocation.columns a.fields = a := rfl
  simp only [ofRecord, h, hwidth, ne_eq, not_true_eq_false, if_false, hcolumns, hrow]

theorem ofRecords_fields {records : List Csv.Record} {rows : List Allocation} (index : Nat)
    (h : records.map Csv.Record.fields = rows.map Allocation.fields) :
    ofRecords Allocation.columns index records = .ok rows := by
  induction rows generalizing records index with
  | nil =>
    obtain rfl := List.map_eq_nil_iff.mp h
    rfl
  | cons a rest ih =>
    obtain ⟨record, others, rfl, hrecord, hothers⟩ := List.map_eq_cons_iff.mp h
    rw [ofRecords, ofRecord_fields index hrecord, ih (index + 1) hothers]
    rfl

theorem ofText_text (t : Table) : ofText t.text = .ok t.unix := by
  have hread : (Csv.records t.text).map Csv.Record.fields = t.unix.lines := by
    rw [text_eq]
    refine Csv.map_fields_records (fun fields => two_le_length_of_mem_lines) ?_
    simp [lines, Csv.recordChars, Allocation.columns, List.intercalate_cons_cons, Csv.fieldChars,
      Csv.isSpecial]
  obtain ⟨header, records, heq, hheader, hrecords⟩ := List.map_eq_cons_iff.mp hread
  rw [ofText, heq]
  simp only [hheader, ofRecords_fields 1 hrecords]
  rfl

theorem unix_eq_self {t : Table} (h : ∀ row ∈ t.rows, row.IsUnix) : t.unix = t := by
  have hrows : t.rows.map Allocation.unix = t.rows.map id :=
    List.map_congr_left fun row hrow => Allocation.unix_eq_self (h row hrow)
  rw [unix, hrows, List.map_id]

theorem unix_eq_self_iff {t : Table} :
    t.unix = t ↔ ∀ row ∈ t.rows, ∀ field ∈ row.fields, Text.IsUnix field := by
  have hrows : t.unix = t ↔ t.rows.map Allocation.unix = t.rows.map id := by
    cases t
    simp [unix]
  rw [hrows, List.map_inj_left]
  exact forall₂_congr fun row _ => Allocation.unix_eq_self_iff

theorem text_eq_header_append (t : Table) : ∃ body, t.text = emptyText ++ body := by
  have hheader : String.ofList (Csv.recordChars Allocation.columns) = emptyText := by
    decide +kernel
  refine ⟨String.ofList ((t.rows.map Allocation.unix).map fun row =>
    Csv.recordChars row.fields).flatten, ?_⟩
  rw [text_eq, lines, List.map_cons, List.flatten_cons, String.ofList_append, hheader, unix,
    List.map_map]
  rfl

/-- Every table is written under its header and read back, row by row, and no field changes but for
the carriage returns that stood directly before a line feed. -/
theorem written_table_reads_back (t : Table) :
    (∃ body, t.text = "NodeKey,RouterKey,NodeName,NodeIP,PodNet\n" ++ body) ∧
      ofText t.text = .ok ⟨t.rows.map Allocation.unix⟩ ∧
      (ofText t.text = .ok t ↔
        ∀ row ∈ t.rows, ∀ field ∈ row.fields, ¬ ['\r', '\n'] <:+: field.toList) := by
  refine ⟨t.text_eq_header_append, ofText_text t, ?_⟩
  rw [ofText_text, Except.ok.injEq]
  exact unix_eq_self_iff

-- carriage returns and line feeds that meet across the border of two fields stay as they are
example : (ofText (text ⟨[⟨"a\r", "\nb", "", "\"\r\n,", "\r"⟩]⟩)).toOption =
    some ⟨[⟨"a\r", "\nb", "", "\"\n,", "\r"⟩]⟩ := by decide +kernel

end Table

end TunnelFleet
