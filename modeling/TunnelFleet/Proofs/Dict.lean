import TunnelFleet.Dict

namespace TunnelFleet.Dict

variable {α : Type}

theorem lookup_insertEntry_self (key : String) (value : α) (entries : List (String × α)) :
    lookup key (insertEntry key value entries) = some value := by
  induction entries with
  | nil => simp [insertEntry, lookup]
  | cons head rest ih =>
    obtain ⟨k, v⟩ := head
    rw [insertEntry]
    split
    · simp [lookup]
    · split
      · simp [lookup]
      next hne => rw [lookup, if_neg (Ne.symm hne), ih]

theorem lookup_insertEntry_of_ne {key other : String} (value : α) (entries : List (String × α))
    (h : key ≠ other) : lookup other (insertEntry key value entries) = lookup other entries := by
  induction entries with
  | nil => simp [insertEntry, lookup, h]
  | cons head rest ih =>
    obtain ⟨k, v⟩ := head
    rw [insertEntry]
    split
    · rw [lookup, if_neg h]
    · split
      next heq =>
        subst heq
        rw [lookup, lookup, if_neg h, if_neg h]
      next => rw [lookup, lookup, ih]

theorem lookup_filter (wanted : String → Bool) {key : String} (entries : List (String × α))
    (h : wanted key = true) :
    lookup key (entries.filter fun entry => wanted entry.1) = lookup key entries := by
  induction entries with
  | nil => rfl
  | cons head rest ih =>
    obtain ⟨k, v⟩ := head
    rw [List.filter_cons]
    split
    next => rw [lookup, lookup, ih]
    next hk =>
      have hne : k ≠ key := fun heq => hk (heq ▸ h)
      rw [lookup, if_neg hne, ih]

theorem lookup_eq_none {key : String} {entries : List (String × α)}
    (h : ∀ entry ∈ entries, entry.1 ≠ key) : lookup key entries = none := by
  induction entries with
  | nil => rfl
  | cons head rest ih =>
    obtain ⟨hhead, hrest⟩ := List.forall_mem_cons.mp h
    rw [lookup, if_neg hhead, ih hrest]

theorem lookup_eq_some_iff {entries : List (String × α)} (h : entries.Pairwise (·.1 < ·.1))
    {key : String} {value : α} : lookup key entries = some value ↔ (key, value) ∈ entries := by
  induction entries with
  | nil => simp [lookup]
  | cons head rest ih =>
    obtain ⟨k, v⟩ := head
    obtain ⟨hhead, hrest⟩ := List.pairwise_cons.mp h
    rw [lookup, List.mem_cons, ← ih hrest]
    split
    next heq =>
      subst heq
      have hnone : lookup k rest = none := by
        refine lookup_eq_none fun entry hentry heq => ?_
        exact String.lt_irrefl k (heq ▸ hhead entry hentry)
      simp [hnone, eq_comm]
    next hne => simp [Ne.symm hne]

theorem eq_of_lookup_eq {entries others : List (String × α)} (h : entries.Pairwise (·.1 < ·.1))
    (hothers : others.Pairwise (·.1 < ·.1))
    (hlookup : ∀ key, lookup key entries = lookup key others) : entries = others := by
  have hnodup {list : List (String × α)} (hrising : list.Pairwise (·.1 < ·.1)) : list.Nodup :=
    hrising.imp fun {a b} hlt (heq : a = b) => String.lt_irrefl b.1 (heq ▸ hlt)
  have hmem : ∀ entry, entry ∈ entries ↔ entry ∈ others := by
    rintro ⟨key, value⟩
    rw [← lookup_eq_some_iff h, ← lookup_eq_some_iff hothers, hlookup]
  have hperm : entries.Perm others :=
    (List.perm_ext_iff_of_nodup (hnodup h) (hnodup hothers)).mpr hmem
  refine hperm.eq_of_pairwise (fun a b _ _ hab hba => ?_) h hothers
  exact absurd (String.lt_trans hab hba) (String.lt_irrefl _)

theorem mem_values_iff (d : Dict α) {value : α} :
    value ∈ d.values ↔ ∃ key, d.get? key = some value := by
  rw [values, List.mem_map]
  constructor
  · rintro ⟨⟨key, value⟩, hentry, rfl⟩
    exact ⟨key, (lookup_eq_some_iff d.rising).mpr hentry⟩
  · rintro ⟨key, hkey⟩
    exact ⟨(key, value), (lookup_eq_some_iff d.rising).mp hkey, rfl⟩

@[simp]
theorem get?_erase_self (d : Dict α) (key : String) : (d.erase key).get? key = none := by
  refine lookup_eq_none fun entry hentry => ?_
  simpa using (List.mem_filter.mp hentry).2

theorem get?_erase_of_ne (d : Dict α) {key other : String} (h : other ≠ key) :
    (d.erase key).get? other = d.get? other :=
  lookup_filter (fun k => k != key) d.entries (by simpa using h)

@[simp]
theorem get?_insert_self (d : Dict α) (key : String) (value : α) :
    (d.insert key value).get? key = some value :=
  lookup_insertEntry_self key value d.entries

theorem get?_insert_of_ne (d : Dict α) {key other : String} (value : α) (h : key ≠ other) :
    (d.insert key value).get? other = d.get? other :=
  lookup_insertEntry_of_ne value d.entries h

theorem get?_foldl_insert {entries : List (String × α)} {key : String} (d : Dict α)
    (h : ∀ entry ∈ entries, entry.1 ≠ key) :
    (entries.foldl (fun d entry => d.insert entry.1 entry.2) d).get? key = d.get? key := by
  induction entries generalizing d with
  | nil => rfl
  | cons head rest ih =>
    obtain ⟨hhead, hrest⟩ := List.forall_mem_cons.mp h
    rw [List.foldl_cons, ih _ hrest, get?_insert_of_ne _ _ hhead]

theorem get?_merge_of_some {d newer : Dict α} {key : String} {value : α}
    (h : newer.get? key = some value) : (d.merge newer).get? key = some value := by
  obtain ⟨entries, hrising⟩ := newer
  unfold get? at h
  unfold merge
  induction entries generalizing d with
  | nil => cases h
  | cons head rest ih =>
    obtain ⟨k, v⟩ := head
    obtain ⟨hhead, hrest⟩ := List.pairwise_cons.mp hrising
    rw [lookup] at h
    rw [List.foldl_cons]
    split at h
    next heq =>
      subst heq
      obtain rfl := Option.some.inj h
      rw [get?_foldl_insert, get?_insert_self]
      intro entry hentry heq
      exact String.lt_irrefl k (heq ▸ hhead entry hentry)
    next => exact ih hrest h

end TunnelFleet.Dict
