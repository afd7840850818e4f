import TunnelFleet.Proofs.Tick.Provision

namespace TunnelFleet

namespace Table

/-- A header does not name every column of a table. -/
def LacksColumn (header : List String) : Prop :=
  ∃ column ∈ Allocation.columns, column ∉ header

variable {header : List String}

theorem exists_columnFault? (h : LacksColumn header) : ∃ fault, columnFault? header = some fault := by
  unfold columnFault?
  cases repeated? [] header with
  | some column => exact ⟨.duplicate column, rfl⟩
  | none =>
    obtain ⟨column, hcolumn, hmissing⟩ := h
    have hfind : (Allocation.columns.find? fun column => column ∉ header).isSome = true :=
      List.find?_isSome.mpr ⟨column, hcolumn, by simpa using hmissing⟩
    obtain ⟨first, hfirst⟩ := Option.isSome_iff_exists.mp hfind
    exact ⟨.missing first, congrArg (Option.map ColumnFault.missing) hfirst⟩

theorem exists_error_of_lacksColumn (h : LacksColumn header) (index : Nat) (record : Csv.Record)
    (rest : List Csv.Record) : ∃ e, ofRecords header index (record :: rest) = .error e := by
  obtain ⟨fault, hfault⟩ := exists_columnFault? h
  have hrecord : ∃ e, ofRecord header index record = .error e := by
    unfold ofRecord
    split
    next => exact ⟨_, rfl⟩
    next => exact ⟨.badColumns index record fault, by rw [hfault]⟩
  obtain ⟨e, he⟩ := hrecord
  refine ⟨e, ?_⟩
  rw [ofRecords, he]
  rfl

theorem ofText_of_records {text : String} {header : Csv.Record} {rows : List Csv.Record}
    (h : Csv.records text = header :: rows) :
    ofText text = (ofRecords header.fields 1 rows).map Table.mk := by
  rw [ofText, h]

end Table

namespace Reconcile

open Table

variable {setting : Setting} {networking : Networking} {name uid key : String} {m : ConfigMap}
  {report : Report}

theorem provision_of_table_error {e : TableError} (h : m.table = .error e) :
    provision setting networking name uid key m report = .fail (.table e) := by
  have hprovisions := provisions setting networking name uid key m report
  generalize provision setting networking name uid key m report = tick at hprovisions ⊢
  cases hprovisions with
  | unread htable =>
    rw [h, Except.error.injEq] at htable
    rw [htable]
  | unknown htable | reused htable | unsearched htable | exhausted htable | allocated htable =>
    rw [h] at htable
    cases htable

theorem provision_of_table_empty {found : Allocation} (h : m.table = .ok ⟨[]⟩)
    (hnext : Allocation.next networking.routers ⟨[]⟩ = .ok found) :
    ∃ rest, provision setting networking name uid key m report =
      .ask (.replace (withTable m ⟨[{ found with nodeKey := key, nodeName := name }]⟩)) rest := by
  have hprovisions := provisions setting networking name uid key m report
  generalize provision setting networking name uid key m report = tick at hprovisions ⊢
  cases hprovisions with
  | unread htable =>
    rw [h] at htable
    cases htable
  | unknown htable hrow | reused htable hrow =>
    obtain rfl := Except.ok.inj (h.symm.trans htable)
    cases hrow
  | unsearched htable _ hsearch | exhausted htable _ hsearch =>
    obtain rfl := Except.ok.inj (h.symm.trans htable)
    rw [hnext] at hsearch
    cases hsearch
  | allocated htable _ hsearch hrow =>
    obtain rfl := Except.ok.inj (h.symm.trans htable)
    obtain rfl := Except.ok.inj (hnext.symm.trans hsearch)
    subst hrow
    exact ⟨_, rfl⟩

/-- A table without one of its columns is rejected if and only if a record stands below its header.
Without one it is read as the empty table. A node is then not provisioned in the one case, without a call,
and in the other the table is overwritten by one that holds the node's row alone. -/
theorem lacksColumn_rejected_iff {text : String} {header : Csv.Record} {rows : List Csv.Record}
    (hrecords : Csv.records text = header :: rows) (hlacks : LacksColumn header.fields) :
    ((∃ e, ofText text = .error e) ↔ rows ≠ []) ∧
      (rows = [] → ofText text = .ok ⟨[]⟩) ∧
      ∀ (setting : Setting) (networking : Networking) (name uid key : String) (m : ConfigMap)
        (report : Report), m.value? Names.tableKey = some text →
        (rows ≠ [] → ∃ e, provision setting networking name uid key m report = .fail (.table e)) ∧
        (rows = [] → ∀ found, Allocation.next networking.routers ⟨[]⟩ = .ok found →
          ∃ rest, provision setting networking name uid key m report =
            .ask (.replace (withTable m ⟨[{ found with nodeKey := key, nodeName := name }]⟩)) rest) := by
  have hempty : rows = [] → ofText text = .ok ⟨[]⟩ := by
    rintro rfl
    exact ofText_of_records hrecords
  have herror : rows ≠ [] → ∃ e, ofText text = .error e := by
    intro hne
    obtain ⟨first, rest, rfl⟩ := List.exists_cons_of_ne_nil hne
    obtain ⟨e, he⟩ := exists_error_of_lacksColumn hlacks 1 first rest
    exact ⟨e, by rw [ofText_of_records hrecords, he]; rfl⟩
  refine ⟨⟨?_, herror⟩, hempty, ?_⟩
  · rintro ⟨e, he⟩ hnil
    rw [hempty hnil] at he
    cases he
  · intro setting networking name uid key m report hm
    have htable : m.table = ofText text := by rw [ConfigMap.table, hm, Option.getD_some]
    refine ⟨fun hne => ?_, fun hnil found hnext => ?_⟩
    · obtain ⟨e, he⟩ := herror hne
      exact ⟨e, provision_of_table_error (htable.trans he)⟩
    · exact provision_of_table_empty (htable.trans (hempty hnil)) hnext

theorem lacksColumn_rejected_three_columns :
    ∃ header rows, Csv.records "NodeKey,RouterKey,NodeName\nk,r,n\n" = header :: rows ∧
      LacksColumn header.fields ∧ rows ≠ [] ∧
      ∃ e, ofText "NodeKey,RouterKey,NodeName\nk,r,n\n" = .error e := by
  have hrecords : Csv.records "NodeKey,RouterKey,NodeName\nk,r,n\n" =
      [⟨["NodeKey", "RouterKey", "NodeName"], 1, 0⟩, ⟨["k", "r", "n"], 2, 27⟩] := by
    decide +kernel
  have hlacks : LacksColumn ["NodeKey", "RouterKey", "NodeName"] :=
    ⟨"NodeIP", by decide, by decide⟩
  have hrows : [(⟨["k", "r", "n"], 2, 27⟩ : Csv.Record)] ≠ [] := nofun
  exact ⟨_, _, hrecords, hlacks, hrows, (lacksColumn_rejected_iff hrecords hlacks).1.mpr hrows⟩

/-- A table that lost its header and has one row: the row is taken for the header, and nothing stands
below it. -/
theorem not_lacksColumn_rejected :
    ¬ ∀ (text : String) (header : Csv.Record) (rows : List Csv.Record),
      Csv.records text = header :: rows → LacksColumn header.fields →
      ∃ e, ofText text = .error e := by
  intro h
  have hrecords : Csv.records "K,R,n,10.1.0.1,10.2.1.0/24\n" =
      [⟨["K", "R", "n", "10.1.0.1", "10.2.1.0/24"], 1, 0⟩] := by
    decide +kernel
  have hlacks : LacksColumn ["K", "R", "n", "10.1.0.1", "10.2.1.0/24"] :=
    ⟨"NodeKey", by decide, by decide⟩
  obtain ⟨e, he⟩ := h _ _ _ hrecords hlacks
  rw [ofText_of_records hrecords] at he
  cases he

end Reconcile

end TunnelFleet
