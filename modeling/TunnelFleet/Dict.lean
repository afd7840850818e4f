namespace TunnelFleet

/-- A finite map from texts. Its entries stand in rising order of key, so one content has one
form. -/
structure Dict (α : Type) where
  entries : List (String × α)
  rising : entries.Pairwise (·.1 < ·.1)
deriving DecidableEq

namespace Dict

variable {α : Type}

def empty : Dict α :=
  ⟨[], .nil⟩

instance : Inhabited (Dict α) :=
  ⟨empty⟩

def lookup (key : String) : List (String × α) → Option α
  | [] => none
  | (k, v) :: rest => if k = key then some v else lookup key rest

def get? (d : Dict α) (key : String) : Option α :=
  lookup key d.entries

/-- Puts an entry in its place among rising ones; an entry of the same key gives way. -/
def insertEntry (key : String) (value : α) : List (String × α) → List (String × α)
  | [] => [(key, value)]
  | (k, v) :: rest =>
      if key < k then (key, value) :: (k, v) :: rest
      else if key = k then (key, value) :: rest
      else (k, v) :: insertEntry key value rest

theorem mem_insertEntry {key : String} {value : α} {entry : String × α}
    {entries : List (String × α)} (h : entry ∈ insertEntry key value entries) :
    entry = (key, value) ∨ entry ∈ entries := by
  induction entries with
  | nil => simpa [insertEntry] using h
  | cons head rest ih =>
    obtain ⟨k, v⟩ := head
    rw [insertEntry] at h
    split at h
    · simpa using h
    · split at h
      · rcases List.mem_cons.mp h with rfl | h
        · exact .inl rfl
        · exact .inr (List.mem_cons_of_mem _ h)
      · rcases List.mem_cons.mp h with rfl | h
        · exact .inr List.mem_cons_self
        · exact (ih h).imp id (List.mem_cons_of_mem _)

theorem rising_insertEntry (key : String) (value : α) {entries : List (String × α)}
    (h : entries.Pairwise (·.1 < ·.1)) :
    (insertEntry key value entries).Pairwise (·.1 < ·.1) := by
  induction entries with
  | nil => simp [insertEntry]
  | cons head rest ih =>
    obtain ⟨k, v⟩ := head
    obtain ⟨hhead, hrest⟩ := List.pairwise_cons.mp h
    rw [insertEntry]
    split
    next hlt =>
      refine List.pairwise_cons.mpr ⟨fun entry hentry => ?_, h⟩
      rcases List.mem_cons.mp hentry with rfl | hentry
      · exact hlt
      · exact String.lt_trans hlt (hhead _ hentry)
    next hlt =>
      split
      next heq =>
        subst heq
        exact List.pairwise_cons.mpr ⟨hhead, hrest⟩
      next hne =>
        refine List.pairwise_cons.mpr ⟨fun entry hentry => ?_, ih hrest⟩
        rcases mem_insertEntry hentry with rfl | hentry
        · exact Std.lt_of_le_of_ne (String.not_lt.mp hlt) (Ne.symm hne)
        · exact hhead _ hentry

def insert (d : Dict α) (key : String) (value : α) : Dict α :=
  ⟨insertEntry key value d.entries, rising_insertEntry key value d.rising⟩

/-- Of entries with one key the last counts. -/
def ofList (entries : List (String × α)) : Dict α :=
  entries.foldl (fun d entry => d.insert entry.1 entry.2) empty

def merge (d newer : Dict α) : Dict α :=
  newer.entries.foldl (fun d entry => d.insert entry.1 entry.2) d

def filterKeys (d : Dict α) (wanted : String → Bool) : Dict α :=
  ⟨d.entries.filter fun entry => wanted entry.1, d.rising.filter _⟩

def filter (d : Dict α) (wanted : α → Bool) : Dict α :=
  ⟨d.entries.filter fun entry => wanted entry.2, d.rising.filter _⟩

def erase (d : Dict α) (key : String) : Dict α :=
  d.filterKeys fun k => k != key

def values (d : Dict α) : List α :=
  d.entries.map (·.2)

end Dict

end TunnelFleet
