import TunnelFleet.Proofs.Allocation.Candidates
import TunnelFleet.Proofs.Allocation.New

namespace TunnelFleet

/-- What comes of dealing out addresses: how many got those of a row they have, the rows of those who
got new ones, and how many were left without. -/
structure Deal where
  reused : Nat := 0
  rows : List Allocation := []
  left : Nat := 0

namespace Deal

instance : Add Deal where
  add d e := ⟨d.reused + e.reused, d.rows ++ e.rows, d.left + e.left⟩

theorem add_def (d e : Deal) : d + e = ⟨d.reused + e.reused, d.rows ++ e.rows, d.left + e.left⟩ :=
  rfl

theorem empty_add (d : Deal) : {} + d = d := by
  simp only [add_def, Nat.zero_add, List.nil_append]

theorem add_assoc (d e f : Deal) : d + e + f = d + (e + f) := by
  simp only [add_def, Nat.add_assoc, List.append_assoc]

theorem reused_add (k n : Nat) : ({ reused := k } + { reused := n } : Deal) = { reused := n + k } := by
  rw [add_def, Nat.add_comm]
  rfl

theorem add_reused_add (d e : Deal) (n : Nat) :
    d + ({ reused := n } + e) = { reused := n } + (d + e) := by
  have hcomm : d + { reused := n } = { reused := n } + d := by
    simp only [add_def, Nat.add_comm d.reused, List.append_nil, List.nil_append, Nat.add_zero,
      Nat.zero_add]
  rw [← add_assoc, hcomm, add_assoc]

end Deal

namespace Allocation

/-- Deals out addresses to one node, and tells how the table reads afterwards. Nothing comes of it
when its row is of an unknown router, or when a block cannot be read. -/
def dealOne (routers : List Router) (table : Table) (name key : String) : Option (Deal × Table) :=
  match table.findKey? key with
  | some row =>
      if routers.any fun router => router.publicKey == row.routerKey then
        some ({ reused := 1 }, table)
      else none
  | none =>
      match next routers table with
      | .error .exhausted => some ({ left := 1 }, table)
      | .error _ => none
      | .ok found => some ({ rows := [found] },
          (table.push { found with nodeKey := key, nodeName := name }).unix)

def deal (routers : List Router) : Except TableError Table → List (String × String) → Option Deal
  | _, [] => some {}
  | .error _, _ :: _ => none
  | .ok table, (name, key) :: rest =>
      (dealOne routers table name key).bind fun (first, table) =>
        (deal routers (.ok table) rest).map (first + ·)

def dealAt (routers : List Router) :
    Except TableError Table → Option (String × String) → Option (Deal × Except TableError Table)
  | table, none => some ({}, table)
  | .error _, some _ => none
  | .ok table, some (name, key) =>
      (dealOne routers table name key).map fun (d, after) => (d, .ok after)

theorem deal_filterMap_cons {α : Type} (routers : List Router) (table : Except TableError Table)
    (demand? : α → Option (String × String)) (a : α) (rest : List α) :
    deal routers table ((a :: rest).filterMap demand?) =
      (dealAt routers table (demand? a)).bind fun (first, after) =>
        (deal routers after (rest.filterMap demand?)).map (first + ·) := by
  rw [List.filterMap_cons]
  cases demand? a with
  | none =>
    have hid : (fun d : Deal => {} + d) = id := funext Deal.empty_add
    rw [dealAt, Option.bind_some]
    dsimp only
    rw [hid, Option.map_id, id]
  | some demand =>
    cases table with
    | error => rfl
    | ok table =>
      rw [deal, dealAt, Option.bind_map]
      rfl

/-- What comes of dealing out addresses to a number of nodes without rows. -/
def series (routers : List Router) : Table → Nat → Option Deal
  | _, 0 => some {}
  | table, n + 1 =>
      match next routers table with
      | .error .exhausted => (series routers table n).map ({ left := 1 } + ·)
      | .error _ => none
      | .ok found => (series routers (table.push found) n).map ({ rows := [found] } + ·)

end Allocation

namespace Table

def addresses (table : Table) : List (String × String) :=
  table.rows.map fun row => (row.nodeIP, row.podNet)

theorem addresses_push (table : Table) (row : Allocation) :
    (table.push row).addresses = table.addresses ++ [(row.nodeIP, row.podNet)] := by
  rw [addresses, push, List.map_append]
  rfl

theorem addresses_unix {table : Table}
    (h : ∀ row ∈ table.rows, Text.IsUnix row.nodeIP ∧ Text.IsUnix row.podNet) :
    table.unix.addresses = table.addresses := by
  rw [addresses, unix, List.map_map]
  exact List.map_congr_left fun row hrow =>
    Prod.ext (Text.unix_eq_self (h row hrow).1) (Text.unix_eq_self (h row hrow).2)

theorem nodeIPs_congr {table other : Table} (h : table.addresses = other.addresses) :
    table.nodeIPs = other.nodeIPs := by
  simpa [addresses, nodeIPs, Function.comp_def] using congrArg (List.map Prod.fst) h

theorem podNets_congr {table other : Table} (h : table.addresses = other.addresses) :
    table.podNets = other.podNets := by
  simpa [addresses, podNets, Function.comp_def] using congrArg (List.map Prod.snd) h

end Table

namespace Allocation

theorem mapM_block_map (role : BlockRole) (column : Allocation → String) (rows : List Allocation) :
    rows.mapM (fun row => block role (column row)) = (rows.map column).mapM (block role) := by
  rw [List.mapM_map]
  rfl

theorem next_congr (routers : List Router) {table other : Table}
    (h : table.addresses = other.addresses) : next routers table = next routers other := by
  have hnodes : table.rows.map (·.nodeIP) = other.rows.map (·.nodeIP) := Table.nodeIPs_congr h
  have hpods : table.rows.map (·.podNet) = other.rows.map (·.podNet) := Table.podNets_congr h
  rw [next, next, mapM_block_map, mapM_block_map, mapM_block_map, mapM_block_map, hnodes, hpods]

theorem series_congr (routers : List Router) {table other : Table} (n : Nat)
    (h : table.addresses = other.addresses) : series routers table n = series routers other n := by
  induction n generalizing table other with
  | zero => rfl
  | succ n ih =>
    rw [series, series, next_congr routers h, ih h]
    split
    · rfl
    · rfl
    next found _ =>
      have hpush : (table.push found).addresses = (other.push found).addresses := by
        rw [Table.addresses_push, Table.addresses_push, h]
      rw [ih hpush]

/-- What a tick looks at again in a row comes back from a written table as it was. -/
structure IsPlain (row : Allocation) : Prop where
  nodeKey : Text.IsUnix row.nodeKey
  nodeIP : Text.IsUnix row.nodeIP
  podNet : Text.IsUnix row.podNet

theorem IsUnix.isPlain {row : Allocation} (h : row.IsUnix) : row.IsPlain :=
  ⟨h.nodeKey, h.nodeIP, h.podNet⟩

theorem isPlain_of_next {routers : List Router} {table : Table} {found : Allocation} {key : String}
    (h : next routers table = .ok found) (hkey : Text.IsUnix key) (name : String) :
    IsPlain { found with nodeKey := key, nodeName := name } where
  nodeKey := hkey
  nodeIP := (of_next h).1.isReadable.isUnix_nodeIP
  podNet := (of_next h).1.isReadable.isUnix_podNet

namespace IsPlain

variable {row : Allocation}

theorem nodeKey_unix (h : row.IsPlain) : row.unix.nodeKey = row.nodeKey :=
  Text.unix_eq_self h.nodeKey

theorem unix (h : row.IsPlain) : row.unix.IsPlain where
  nodeKey := Text.isUnix_unix h.nodeKey
  nodeIP := Text.isUnix_unix h.nodeIP
  podNet := Text.isUnix_unix h.podNet

end IsPlain

/-- Rows were put behind those of a table, for keys that are not asked for any more. -/
structure Grown (base table : Table) (keys : List String) (added : List Allocation) : Prop where
  origin : ∀ row ∈ base.rows, row.IsUnix
  rows : table.rows = base.rows ++ added
  past : ∀ row ∈ added, row.nodeKey ∉ keys
  plain : ∀ row ∈ added, row.IsPlain

namespace Grown

variable {routers : List Router} {base table : Table} {name key : String} {keys : List String}
  {added : List Allocation} {found : Allocation}

theorem refl (h : ∀ row ∈ base.rows, row.IsUnix) (keys : List String) : Grown base base keys [] :=
  ⟨h, (List.append_nil _).symm, nofun, nofun⟩

theorem tail (h : Grown base table (key :: keys) added) : Grown base table keys added :=
  ⟨h.origin, h.rows, fun row hrow hmem => h.past row hrow (List.mem_cons_of_mem _ hmem), h.plain⟩

theorem isPlain (h : Grown base table keys added) : ∀ row ∈ table.rows, row.IsPlain := by
  intro row hrow
  rw [h.rows] at hrow
  exact (List.mem_append.mp hrow).elim (fun hold => (h.origin row hold).isPlain) (h.plain row)

theorem findKey?_eq (h : Grown base table keys added) (hkey : key ∈ keys) :
    table.findKey? key = base.findKey? key := by
  have hnone : added.find? (fun row => row.nodeKey == key) = none := by
    refine List.find?_eq_none.mpr fun row hrow heq => h.past row hrow ?_
    rwa [beq_iff_eq.mp heq]
  rw [Table.findKey?, h.rows, List.find?_append, hnone, Option.or_none, Table.findKey?]

theorem unix (h : Grown base table keys added) :
    Grown base table.unix keys (added.map Allocation.unix) where
  origin := h.origin
  rows := by
    have hbase : base.rows.map Allocation.unix = base.rows :=
      congrArg Table.rows (Table.unix_eq_self h.origin)
    rw [Table.unix, h.rows, List.map_append, hbase]
  past := by
    intro row hrow
    obtain ⟨old, hold, rfl⟩ := List.mem_map.mp hrow
    rw [(h.plain old hold).nodeKey_unix]
    exact h.past old hold
  plain := by
    intro row hrow
    obtain ⟨old, hold, rfl⟩ := List.mem_map.mp hrow
    exact (h.plain old hold).unix

theorem push (h : Grown base table (key :: keys) added) {row : Allocation} (hplain : row.IsPlain)
    (hkey : row.nodeKey = key) (hpast : key ∉ keys) :
    Grown base (table.push row) keys (added ++ [row]) where
  origin := h.origin
  rows := by rw [Table.push, h.rows, List.append_assoc]
  past := by
    intro old hold
    rcases List.mem_append.mp hold with hold | hold
    · exact h.tail.past old hold
    · rwa [List.mem_singleton.mp hold, hkey]
  plain := by
    intro old hold
    rcases List.mem_append.mp hold with hold | hold
    · exact h.plain old hold
    · rwa [List.mem_singleton.mp hold]

end Grown

end Allocation

namespace Table

def isOpen (routers : List Router) (table : Table) (key : String) : Bool :=
  (table.findKey? key).all fun row => routers.any fun router => router.publicKey == row.routerKey

def lacks (table : Table) (key : String) : Bool :=
  (table.findKey? key).isNone

end Table

namespace Allocation

variable {routers : List Router} {base table : Table} {added : List Allocation}
  {demands others : List (String × String)}

def outcome (routers : List Router) (base table : Table) (demands : List (String × String)) :
    Option Deal :=
  if demands.all fun demand => base.isOpen routers demand.2 then
    (series routers table (demands.countP fun demand => base.lacks demand.2)).map
      ({ reused := demands.countP fun demand => !base.lacks demand.2 } + ·)
  else none

theorem outcome_cons_of_row {name key : String} {row : Allocation} (table : Table)
    (rest : List (String × String)) (hrow : base.findKey? key = some row) :
    outcome routers base table ((name, key) :: rest) =
      if routers.any fun router => router.publicKey == row.routerKey then
        (outcome routers base table rest).map ({ reused := 1 } + ·)
      else none := by
  have hlacks : base.lacks key = false := by rw [Table.lacks, hrow, Option.isNone_some]
  have hopen : base.isOpen routers key =
      routers.any fun router => router.publicKey == row.routerKey := by
    rw [Table.isOpen, hrow, Option.all_some]
  simp only [outcome, List.all_cons, List.countP_cons, hlacks, hopen]
  by_cases hknown : (routers.any fun router => router.publicKey == row.routerKey) = true
  · simp only [hknown, Bool.true_and, if_true]
    split
    · rw [Option.map_map]
      refine congrArg (Option.map · _) (funext fun d => ?_)
      rw [Function.comp_apply, ← Deal.add_assoc, Deal.reused_add]
      rfl
    · rfl
  · simp only [hknown, Bool.false_and]
    rfl

theorem outcome_cons_of_none {name key : String} (table : Table) (rest : List (String × String))
    (hrow : base.findKey? key = none) :
    outcome routers base table ((name, key) :: rest) =
      match next routers table with
      | .error .exhausted => (outcome routers base table rest).map ({ left := 1 } + ·)
      | .error _ => none
      | .ok found => (outcome routers base (table.push found) rest).map ({ rows := [found] } + ·) := by
  have hlacks : base.lacks key = true := by rw [Table.lacks, hrow, Option.isNone_none]
  have hopen : base.isOpen routers key = true := by rw [Table.isOpen, hrow, Option.all_none]
  have hadd : ∀ (first : Deal) (n : Nat) (x : Option Deal), Option.map ({ reused := n } + ·)
      (Option.map (first + ·) x) = Option.map (first + ·) (Option.map ({ reused := n } + ·) x) := by
    intro first n x
    rw [Option.map_map, Option.map_map]
    exact congrArg (Option.map · x) (funext fun d => (first.add_reused_add d n).symm)
  simp only [outcome, List.all_cons, List.countP_cons, hlacks, hopen, Bool.true_and, Bool.not_true,
    Bool.false_eq_true, if_true, if_false, Nat.add_zero]
  by_cases hrest : (rest.all fun demand => base.isOpen routers demand.2) = true
  · simp only [hrest, if_true]
    rw [series]
    split
    · exact hadd _ _ _
    · rfl
    · exact hadd _ _ _
  · simp only [hrest, Bool.false_eq_true, if_false]
    rcases next routers table with ⟨- | -⟩ | found <;> rfl

theorem outcome_congr (routers : List Router) (base : Table) {table other : Table}
    (h : table.addresses = other.addresses) (demands : List (String × String)) :
    outcome routers base table demands = outcome routers base other demands := by
  rw [outcome, outcome, series_congr routers _ h]

theorem outcome_perm (routers : List Router) (base table : Table) (h : demands.Perm others) :
    outcome routers base table demands = outcome routers base table others := by
  rw [outcome, outcome, h.all_eq, h.countP_eq, h.countP_eq]

theorem deal_eq_outcome (h : Grown base table (demands.map Prod.snd) added)
    (hkeys : (demands.map Prod.snd).Nodup) (hunix : ∀ demand ∈ demands, Text.IsUnix demand.2) :
    deal routers (.ok table) demands = outcome routers base table demands := by
  -- rows that were dealt on the way have keys that do not come up again, so that every key is looked
  -- up among those of the base alone
  induction demands generalizing table added with
  | nil => rfl
  | cons demand rest ih =>
    obtain ⟨name, key⟩ := demand
    obtain ⟨hpast, hrest⟩ := List.nodup_cons.mp hkeys
    obtain ⟨hkey, hothers⟩ := List.forall_mem_cons.mp hunix
    rw [deal, dealOne, h.findKey?_eq List.mem_cons_self]
    cases hrow : base.findKey? key with
    | some row =>
      rw [outcome_cons_of_row table rest hrow]
      dsimp only
      split
      · rw [Option.bind_some, ih h.tail hrest hothers]
      · rfl
    | none =>
      rw [outcome_cons_of_none table rest hrow]
      dsimp only
      cases hnext : next routers table with
      | error error =>
        cases error with
        | exhausted => rw [Option.bind_some, ih h.tail hrest hothers]
        | badBlock => rfl
      | ok found =>
        have hpushed := h.push (isPlain_of_next hnext hkey name) rfl hpast
        have haddresses := Table.addresses_unix fun row hrow =>
          ⟨(hpushed.isPlain row hrow).nodeIP, (hpushed.isPlain row hrow).podNet⟩
        rw [Option.bind_some, ih hpushed.unix hrest hothers]
        rw [outcome_congr routers base (haddresses.trans ?_) rest]
        rw [Table.addresses_push, Table.addresses_push]

theorem deal_perm {table : Except TableError Table}
    (htable : ∀ read, table = .ok read → ∀ row ∈ read.rows, row.IsUnix)
    (hkeys : (demands.map Prod.snd).Nodup) (hunix : ∀ demand ∈ demands, Text.IsUnix demand.2)
    (h : demands.Perm others) : deal routers table demands = deal routers table others := by
  cases table with
  | error e =>
    cases demands with
    | nil => rw [List.nil_perm.mp h]
    | cons demand rest =>
      cases others with
      | nil => cases List.perm_nil.mp h
      | cons => rfl
  | ok table =>
    have hgrown := Grown.refl (htable table rfl)
    rw [deal_eq_outcome (hgrown _) hkeys hunix, outcome_perm routers table table h,
      deal_eq_outcome (hgrown _) ((h.map _).nodup_iff.mp hkeys) fun demand hdemand =>
        hunix demand (h.mem_iff.mpr hdemand)]

end Allocation

end TunnelFleet
