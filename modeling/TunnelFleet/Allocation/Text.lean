import TunnelFleet.Allocation.Basic
import TunnelFleet.Csv
import TunnelFleet.Text.Basic

namespace TunnelFleet

inductive ColumnFault where
  | duplicate (column : String)
  | missing (column : String)
deriving DecidableEq

def ColumnFault.message : ColumnFault → String
  | .duplicate column => "duplicate field `" ++ column ++ "`"
  | .missing column => "missing field `" ++ column ++ "`"

/-- Why a text is no table of allocations. The record at fault comes with its index; the header
has index zero. -/
inductive TableError where
  | ragged (index : Nat) (record : Csv.Record) (width : Nat)
  | badColumns (index : Nat) (record : Csv.Record) (fault : ColumnFault)
deriving DecidableEq

namespace TableError

def place (index : Nat) (record : Csv.Record) : String :=
  "record " ++ toString index ++ " (line: " ++ toString record.line ++ ", byte: " ++
    toString record.byte ++ "): "

def detail : TableError → String
  | .ragged index record width =>
      "CSV error: " ++ place index record ++ "found record with " ++
        toString record.fields.length ++ " fields, but the previous record has " ++
        toString width ++ " fields"
  | .badColumns index record fault =>
      "CSV deserialize error: " ++ place index record ++ fault.message

def message (e : TableError) : String :=
  "Allocation table error: " ++ e.detail

end TableError

def repeated? (seen : List String) : List String → Option String
  | [] => none
  | column :: rest =>
      if column ∈ seen then some column
      else repeated? (if column ∈ Allocation.columns then column :: seen else seen) rest

/-- A header must name every column of a table once. -/
def columnFault? (header : List String) : Option ColumnFault :=
  match repeated? [] header with
  | some column => some (.duplicate column)
  | none => (Allocation.columns.find? fun column => column ∉ header).map .missing

namespace Table

def field (header fields : List String) (column : String) : String :=
  (((header.zip fields).find? fun pair => pair.1 == column).map (·.2)).getD ""

def row (header fields : List String) : Allocation where
  nodeKey := field header fields "NodeKey"
  routerKey := field header fields "RouterKey"
  nodeName := field header fields "NodeName"
  nodeIP := field header fields "NodeIP"
  podNet := field header fields "PodNet"

def ofRecord (header : List String) (index : Nat) (record : Csv.Record) :
    Except TableError Allocation :=
  if record.fields.length ≠ header.length then .error (.ragged index record header.length)
  else
    match columnFault? header with
    | some fault => .error (.badColumns index record fault)
    | none => .ok (row header record.fields)

def ofRecords (header : List String) : Nat → List Csv.Record → Except TableError (List Allocation)
  | _, [] => .ok []
  | index, record :: rest => do
      let first ← ofRecord header index record
      let others ← ofRecords header (index + 1) rest
      .ok (first :: others)

/-- Reads a table. The first record names the columns; fields are found by these names, in any
order and among others. -/
def ofText (s : String) : Except TableError Table :=
  match Csv.records s with
  | [] => .ok ⟨[]⟩
  | header :: records => (ofRecords header.fields 1 records).map Table.mk

/-- Writes a header and one line per row. A carriage return before a line feed is dropped, also
inside a field. -/
def text (t : Table) : String :=
  String.ofList (Text.unixLines
    ((Allocation.columns :: t.rows.map Allocation.fields).map Csv.recordChars).flatten)

def emptyText : String :=
  "NodeKey,RouterKey,NodeName,NodeIP,PodNet\n"

end Table

end TunnelFleet
