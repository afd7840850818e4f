import Mathlib.Data.List.Forall2
import Mathlib.Data.List.Perm.Subperm
import TunnelFleet.Proofs.Allocation.Text
import TunnelFleet.Proofs.Reading

namespace TunnelFleet

theorem repeated?_eq_none_iff {seen header : List String} (hseen : seen ⊆ Allocation.columns) :
    repeated? seen header = none ↔
      (∀ column ∈ seen, column ∉ header) ∧
        ∀ column ∈ Allocation.columns, header.count column ≤ 1 := by
  induction header generalizing seen with
  | nil => simp [repeated?]
  | cons first rest ih =>
    rw [repeated?]
    by_cases hfirst : first ∈ seen
    · rw [if_pos hfirst]
      refine ⟨nofun, fun h => absurd List.mem_cons_self (h.1 first hfirst)⟩
    · rw [if_neg hfirst]
      have hne : ∀ column ∈ seen, column ≠ first := fun column hcolumn heq =>
        hfirst (heq ▸ hcolumn)
      by_cases hcolumn : first ∈ Allocation.columns
      · rw [if_pos hcolumn, ih (List.cons_subset.mpr ⟨hcolumn, hseen⟩), List.forall_mem_cons]
        constructor
        · rintro ⟨⟨hrest, hold⟩, hcount⟩
          refine ⟨fun column hc => List.not_mem_cons_of_ne_of_not_mem (hne column hc)
            (hold column hc), fun column hc => ?_⟩
          by_cases heq : first = column
          · have hone : (first :: rest).count column = 1 := by
              rw [← heq, List.count_cons_self, List.count_eq_zero_of_not_mem hrest]
            exact Nat.le_of_eq hone
          · rw [List.count_cons_of_ne heq]
            exact hcount column hc
        · rintro ⟨hold, hcount⟩
          have hself := hcount first hcolumn
          rw [List.count_cons_self] at hself
          have hrest : first ∉ rest := List.count_eq_zero.mp (by omega)
          exact ⟨⟨hrest, fun column hc => List.not_mem_of_not_mem_cons (hold column hc)⟩,
            fun column hc => Nat.le_trans List.count_le_count_cons (hcount column hc)⟩
      · rw [if_neg hcolumn, ih hseen]
        refine and_congr (forall₂_congr fun column hc => ?_) (forall₂_congr fun column hc => ?_)
        · rw [List.mem_cons, not_or, and_iff_right (hne column hc)]
        · have hother : first ≠ column := fun heq => hcolumn (heq ▸ hc)
          rw [List.count_cons_of_ne hother]

theorem columnFault?_eq_none_iff {header : List String} : columnFault? header = none ↔
    ∀ column ∈ Allocation.columns, header.count column = 1 := by
  have honce : repeated? [] header = none ↔
      ∀ column ∈ Allocation.columns, header.count column ≤ 1 := by
    rw [repeated?_eq_none_iff (List.nil_subset Allocation.columns),
      and_iff_right (List.forall_mem_nil _)]
  have hall : (Allocation.columns.find? fun column => column ∉ header) = none ↔
      ∀ column ∈ Allocation.columns, 1 ≤ header.count column := by
    simp [List.find?_eq_none, List.one_le_count_iff]
  have hsplit : (∀ column ∈ Allocation.columns, header.count column = 1) ↔
      (∀ column ∈ Allocation.columns, header.count column ≤ 1) ∧
        ∀ column ∈ Allocation.columns, 1 ≤ header.count column := by
    rw [← forall₂_and]
    exact forall₂_congr fun column _ => Nat.le_antisymm_iff
  rw [hsplit, ← honce, ← hall, columnFault?]
  cases repeated? [] header with
  | some column => simp
  | none => simp [Option.map_eq_none_iff]

namespace Table

variable {header fields : List String} {column value : String}

theorem field_eq_of_mem_zip (hcount : header.count column ≤ 1)
    (h : (column, value) ∈ header.zip fields) : field header fields column = value := by
  induction header generalizing fields with
  | nil => cases h
  | cons first header ih =>
    cases fields with
    | nil => cases h
    | cons given fields =>
      rw [field, List.zip_cons_cons]
      rw [List.zip_cons_cons, List.mem_cons] at h
      by_cases heq : first = column
      · subst heq
        rw [List.find?_cons_of_pos (by simp)]
        rcases h with h | h
        · rw [Prod.mk.injEq] at h
          exact h.2.symm
        · rw [List.count_cons_self] at hcount
          have hnone : first ∉ header := List.count_eq_zero.mp (by omega)
          exact absurd (List.of_mem_zip h).1 hnone
      · rw [List.find?_cons_of_neg (by simpa using heq)]
        rcases h with h | h
        · rw [Prod.mk.injEq] at h
          exact absurd h.1.symm heq
        · rw [List.count_cons_of_ne heq] at hcount
          exact ih hcount h

/-- The fields of a record hold a row: as many as there are columns, and those in the places of the
columns of a table are the row's. -/
structure IsArranged (header : List String) (row : Allocation) (fields : List String) : Prop where
  length_eq : fields.length = header.length
  holds : ∀ pair ∈ Allocation.columns.zip row.fields, pair ∈ header.zip fields

theorem row_eq_of_isArranged {a : Allocation} (h : IsArranged header a fields)
    (hheader : ∀ column ∈ Allocation.columns, header.count column = 1) :
    row header fields = a := by
  have hfield : ∀ column value, (column, value) ∈ Allocation.columns.zip a.fields →
      field header fields column = value := by
    intro column value hpair
    have hcolumn := hheader column (List.of_mem_zip hpair).1
    exact field_eq_of_mem_zip (Nat.le_of_eq hcolumn) (h.holds _ hpair)
  have hpairs : Allocation.columns.zip a.fields = [("NodeKey", a.nodeKey),
      ("RouterKey", a.routerKey), ("NodeName", a.nodeName), ("NodeIP", a.nodeIP),
      ("PodNet", a.podNet)] := rfl
  rw [hpairs] at hfield
  rw [row, hfield "NodeKey" a.nodeKey (by simp), hfield "RouterKey" a.routerKey (by simp),
    hfield "NodeName" a.nodeName (by simp), hfield "NodeIP" a.nodeIP (by simp),
    hfield "PodNet" a.podNet (by simp)]

theorem ofRecords_of_isArranged {records : List Csv.Record} {rows : List Allocation} (index : Nat)
    (hheader : ∀ column ∈ Allocation.columns, header.count column = 1)
    (h : List.Forall₂ (IsArranged header) rows (records.map Csv.Record.fields)) :
    ofRecords header index records = .ok rows := by
  induction records generalizing rows index with
  | nil =>
    rw [List.map_nil, List.forall₂_nil_right_iff] at h
    rw [h]
    rfl
  | cons record rest ih =>
    rw [List.map_cons, List.forall₂_cons_right_iff] at h
    obtain ⟨a, others, hrow, hothers, rfl⟩ := h
    have hrecord : ofRecord header index record = .ok a := by
      rw [ofRecord, if_neg (not_not.mpr hrow.length_eq), columnFault?_eq_none_iff.mpr hheader,
        row_eq_of_isArranged hrow hheader]
    rw [ofRecords, hrecord, ih (index + 1) hothers]
    rfl

theorem length_columns_le (hheader : ∀ column ∈ Allocation.columns, header.count column = 1) :
    Allocation.columns.length ≤ header.length := by
  have hsubset : Allocation.columns ⊆ header := by
    intro column hcolumn
    have hcount := hheader column hcolumn
    exact List.count_pos_iff.mp (by omega)
  exact (List.subperm_of_subset (by decide) hsubset).length_le

/-- However a table is laid out, its rows are read as they are: the columns may come in any order and
among others, and line ends, blank lines and quotes are the writer's choice. -/
theorem laid_out_rows_read_back {rows : List Allocation} {records : List (List String)}
    {text : String} (hheader : ∀ column ∈ Allocation.columns, header.count column = 1)
    (hrows : List.Forall₂ (IsArranged header) rows records)
    (htext : Csv.IsSheet (header :: records) text.toList)
    (hmark : text.toList.head? ≠ some '\uFEFF') : ofText text = .ok ⟨rows⟩ := by
  have hwidth : 2 ≤ header.length := Nat.le_trans (by decide) (length_columns_le hheader)
  have hlines : ∀ fields ∈ header :: records, 2 ≤ fields.length := by
    intro fields hfields
    rcases List.mem_cons.mp hfields with rfl | hfields
    · exact hwidth
    · obtain ⟨row, -, hrow⟩ := exists_of_forall₂ hrows.flip hfields
      rwa [hrow.length_eq]
  have hread := Csv.map_fields_records_of_isSheet htext hlines hmark
  obtain ⟨first, others, heq, hfirst, hothers⟩ := List.map_eq_cons_iff.mp hread
  rw [← hothers] at hrows
  rw [ofText, heq]
  simp only [hfirst, ofRecords_of_isArranged 1 hheader hrows]
  rfl

/-- A table with its columns out of order around another one, whose last row does not end. -/
theorem laid_out_rows_read_back_mixed :
    let header := ["PodNet", "Since", "NodeName", "NodeKey", "RouterKey", "NodeIP"]
    let rows : List Allocation :=
      [⟨"K", "R", "n", "10.1.0.1", "10.2.1.0/24"⟩, ⟨"L,\n\"", "R", "", "10.1.0.2", "10.2.2.0/24"⟩]
    let records := [["10.2.1.0/24", "\r", "n", "K", "R", "10.1.0.1"],
      ["10.2.2.0/24", "", "", "L,\n\"", "R", "10.1.0.2"]]
    let text := "\nPodNet,Since,\"NodeName\",NodeKey,RouterKey,NodeIP\r\n\r" ++
      "10.2.1.0/24,\"\r\",n,K,R,10.1.0.1\r10.2.2.0/24,,\"\",\"L,\n\"\"\",R,10.1.0.2"
    (∀ column ∈ Allocation.columns, header.count column = 1) ∧
      List.Forall₂ (IsArranged header) rows records ∧
      Csv.IsSheet (header :: records) text.toList ∧ text.toList.head? ≠ some '\uFEFF' ∧
      ofText text = .ok ⟨rows⟩ := by
  intro header rows records text
  have hheader : ∀ column ∈ Allocation.columns, header.count column = 1 := by decide
  have hrows : List.Forall₂ (IsArranged header) rows records :=
    .cons ⟨rfl, by decide⟩ (.cons ⟨rfl, by decide⟩ .nil)
  have hfirst : Csv.IsLine header "PodNet,Since,\"NodeName\",NodeKey,RouterKey,NodeIP".toList :=
    .cons (.bare rfl) (.cons (.bare rfl) (.cons .quoted (.cons (.bare rfl) (.cons (.bare rfl)
      (.single (.bare rfl))))))
  have hsecond : Csv.IsLine ["10.2.1.0/24", "\r", "n", "K", "R", "10.1.0.1"]
      "10.2.1.0/24,\"\r\",n,K,R,10.1.0.1".toList :=
    .cons (.bare rfl) (.cons .quoted (.cons (.bare rfl) (.cons (.bare rfl) (.cons (.bare rfl)
      (.single (.bare rfl))))))
  have hthird : Csv.IsLine ["10.2.2.0/24", "", "", "L,\n\"", "R", "10.1.0.2"]
      "10.2.2.0/24,,\"\",\"L,\n\"\"\",R,10.1.0.2".toList :=
    .cons (.bare rfl) (.cons (.bare rfl) (.cons .quoted (.cons .quoted (.cons (.bare rfl)
      (.single (.bare rfl))))))
  have htext : Csv.IsSheet (header :: records) text.toList := by
    have hsheet : Csv.IsSheet (header :: records) _ :=
      .blank .feed (.record hfirst .both (.blank .carriage
        (.record hsecond .carriage (.unended hthird))))
    convert hsheet using 1
    decide +kernel
  have hmark : text.toList.head? ≠ some '\uFEFF' := by decide +kernel
  exact ⟨hheader, hrows, htext, hmark, laid_out_rows_read_back hheader hrows htext hmark⟩

end Table

end TunnelFleet
