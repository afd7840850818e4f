import Mathlib.Data.List.Basic
import TunnelFleet.Proofs.Dict
import TunnelFleet.Watch.Replica

namespace TunnelFleet

open HasMeta (identity?)

variable {α : Type}

/-- How far a watch has come: it has listed nothing yet, a listing is under way, or it tells the
changes after a listing. -/
inductive WatchPhase where
  | idle
  | listing
  | following
deriving DecidableEq

namespace WatchPhase

/-- Whether a watch may tell an event. A listing may begin at any time, also in place of one that is
under way, and a failure may happen at any time. -/
def allows (phase : WatchPhase) : WatchEvent α → Bool
  | .listing => true
  | .failed => true
  | .listed _ => phase == .listing
  | .listingDone => phase == .listing
  | .applied _ => phase == .following
  | .deleted _ => phase == .following

def after (phase : WatchPhase) : WatchEvent α → WatchPhase
  | .listing => .listing
  | .listingDone => .following
  | _ => phase

/-- Whether a watch that has come so far may tell these events. -/
def tells : WatchPhase → List (WatchEvent α) → Bool
  | _, [] => true
  | phase, event :: rest => phase.allows event && (phase.after event).tells rest

end WatchPhase

variable [HasMeta α]

/-- An object as events leave it: the last of them that tells of its identity lists or applies it. -/
def IsLeftBy (events : List (WatchEvent α)) (object : α) : Prop :=
  ∃ before event later, events = before ++ event :: later ∧
    (event = .listed object ∨ event = .applied object) ∧
    ∀ e ∈ later, ∀ o ∈ e.object?, identity? o ≠ identity? object

theorem isLeftBy_concat {events : List (WatchEvent α)} {event : WatchEvent α} {object : α} :
    IsLeftBy (events ++ [event]) object ↔
      (event = .listed object ∨ event = .applied object) ∨
        (∀ o ∈ event.object?, identity? o ≠ identity? object) ∧ IsLeftBy events object := by
  constructor
  · rintro ⟨before, found, later, hsplit, hfound, hlater⟩
    rcases List.eq_nil_or_concat later with rfl | ⟨front, last, rfl⟩
    · obtain ⟨-, hlast⟩ := List.append_inj' hsplit rfl
      obtain rfl := List.singleton_inj.mp hlast
      exact .inl hfound
    · have hsplit : events ++ [event] = (before ++ found :: front) ++ [last] := by simpa using hsplit
      obtain ⟨rfl, hlast⟩ := List.append_inj' hsplit rfl
      obtain rfl := List.singleton_inj.mp hlast
      refine .inr ⟨hlater event (by simp), before, found, front, rfl, hfound, fun e he => ?_⟩
      exact hlater e (by simp [he])
  · rintro (hevent | ⟨hother, before, found, later, rfl, hfound, hlater⟩)
    · exact ⟨events, event, [], rfl, hevent, List.forall_mem_nil _⟩
    · refine ⟨before, found, later ++ [event], by simp, hfound, ?_⟩
      exact List.forall_mem_append.mpr ⟨hlater, List.forall_mem_singleton.mpr hother⟩

theorem not_isLeftBy_nil (object : α) : ¬ IsLeftBy [] object := by
  rintro ⟨before, event, later, hsplit, -⟩
  simp at hsplit

section

variable {events : List (WatchEvent α)} {event : WatchEvent α} {object other : α}

theorem isLeftBy_concat_of_object_none (h : event.object? = none) :
    IsLeftBy (events ++ [event]) object ↔ IsLeftBy events object := by
  rw [isLeftBy_concat, h]
  constructor
  · rintro ((rfl | rfl) | ⟨-, hleft⟩)
    · cases h
    · cases h
    · exact hleft
  · exact fun hleft => .inr ⟨nofun, hleft⟩

theorem isLeftBy_concat_put (h : event = .listed other ∨ event = .applied other) :
    IsLeftBy (events ++ [event]) object ↔
      object = other ∨ identity? other ≠ identity? object ∧ IsLeftBy events object := by
  rw [isLeftBy_concat]
  rcases h with rfl | rfl
  all_goals simp [WatchEvent.object?, eq_comm]

theorem isLeftBy_concat_deleted :
    IsLeftBy (events ++ [.deleted other]) object ↔
      identity? other ≠ identity? object ∧ IsLeftBy events object := by
  rw [isLeftBy_concat]
  simp [WatchEvent.object?]

end

namespace Replica

/-- Under each identity stands the object that events leave of it, and nothing else does. -/
structure Keeps (events : List (WatchEvent α)) (objects : Dict α) : Prop where
  get?_iff : ∀ key object,
    objects.get? key = some object ↔ identity? object = some key ∧ IsLeftBy events object
  named : ∀ object, IsLeftBy events object → ∃ key, identity? object = some key

namespace Keeps

variable {events : List (WatchEvent α)} {objects : Dict α} {event : WatchEvent α} {object : α}
  {key : String}

theorem empty : Keeps ([] : List (WatchEvent α)) .empty where
  get?_iff _ object := ⟨nofun, fun h => absurd h.2 (not_isLeftBy_nil object)⟩
  named object h := absurd h (not_isLeftBy_nil object)

theorem idle (h : Keeps events objects) (hevent : event.object? = none) :
    Keeps (events ++ [event]) objects where
  get?_iff key object := by rw [isLeftBy_concat_of_object_none hevent, h.get?_iff]
  named object hleft := h.named object ((isLeftBy_concat_of_object_none hevent).mp hleft)

theorem put (h : Keeps events objects) (hkey : identity? object = some key)
    (hevent : event = .listed object ∨ event = .applied object) :
    Keeps (events ++ [event]) (put objects object) where
  get?_iff other found := by
    rw [isLeftBy_concat_put hevent, Replica.put, hkey]
    by_cases hother : key = other
    · subst hother
      rw [Dict.get?_insert_self]
      constructor
      · intro hfound
        obtain rfl := Option.some.inj hfound
        exact ⟨hkey, .inl rfl⟩
      · rintro ⟨hfound, rfl | ⟨hne, -⟩⟩
        · rfl
        · exact absurd hfound.symm hne
    · have hne : some key ≠ some other := fun heq => hother (Option.some.inj heq)
      rw [Dict.get?_insert_of_ne _ _ hother, h.get?_iff]
      constructor
      · rintro ⟨hfound, hleft⟩
        exact ⟨hfound, .inr ⟨hfound ▸ hne, hleft⟩⟩
      · rintro ⟨hfound, rfl | ⟨-, hleft⟩⟩
        · exact absurd (hkey.symm.trans hfound) hne
        · exact ⟨hfound, hleft⟩
  named found hleft := by
    rcases (isLeftBy_concat_put hevent).mp hleft with rfl | ⟨-, hleft⟩
    · exact ⟨key, hkey⟩
    · exact h.named found hleft

theorem remove (h : Keeps events objects) (hkey : identity? object = some key) :
    Keeps (events ++ [.deleted object]) (remove objects object) where
  get?_iff other found := by
    rw [isLeftBy_concat_deleted, Replica.remove, hkey]
    by_cases hother : key = other
    · subst hother
      rw [Dict.get?_erase_self]
      exact ⟨nofun, fun ⟨hfound, hne, _⟩ => absurd hfound.symm hne⟩
    · have hne : some key ≠ some other := fun heq => hother (Option.some.inj heq)
      rw [Dict.get?_erase_of_ne _ (Ne.symm hother), h.get?_iff]
      constructor
      · rintro ⟨hfound, hleft⟩
        exact ⟨hfound, hfound ▸ hne, hleft⟩
      · exact fun ⟨hfound, _, hleft⟩ => ⟨hfound, hleft⟩
  named found hleft := h.named found (isLeftBy_concat_deleted.mp hleft).2

theorem mem_values_iff (h : Keeps events objects) (object : α) :
    object ∈ objects.values ↔ IsLeftBy events object := by
  rw [Dict.mem_values_iff]
  constructor
  · rintro ⟨key, hkey⟩
    exact ((h.get?_iff key object).mp hkey).2
  · intro hleft
    obtain ⟨key, hkey⟩ := h.named object hleft
    exact ⟨key, (h.get?_iff key object).mpr ⟨hkey, hleft⟩⟩

theorem nodup_identities (h : Keeps events objects) :
    (objects.values.map identity?).Nodup := by
  have hkeys : objects.values.map identity? = objects.entries.map fun entry => some entry.1 := by
    rw [Dict.values, List.map_map]
    refine List.map_congr_left fun entry hentry => ?_
    have hget := (Dict.lookup_eq_some_iff objects.rising).mpr hentry
    exact ((h.get?_iff entry.1 entry.2).mp hget).1
  rw [hkeys]
  refine List.pairwise_map.mpr (objects.rising.imp fun {a b} hlt heq => ?_)
  exact String.lt_irrefl b.1 (Option.some.inj heq ▸ hlt)

end Keeps

def AreListed (events : List (WatchEvent α)) : Prop :=
  ∀ event ∈ events, event = .failed ∨ ∃ object, event = .listed object

def AreChanges (events : List (WatchEvent α)) : Prop :=
  ∀ event ∈ events, event = .failed ∨ ∃ object, event = .applied object ∨ event = .deleted object

/-- A replica and how far its watch has come, after all that the watch has told. -/
inductive Follows : WatchPhase → List (WatchEvent α) → Replica α → Prop where
  | idle {history : List (WatchEvent α)} {r : Replica α} (hsynced : r.synced = false) :
      Follows .idle history r
  | listing (earlier : List (WatchEvent α)) {listed : List (WatchEvent α)} {r : Replica α}
      (hsynced : r.synced = false) (hlisted : AreListed listed) (harriving : Keeps listed r.arriving) :
      Follows .listing (earlier ++ .listing :: listed) r
  | following (earlier : List (WatchEvent α)) {listed changes : List (WatchEvent α)} {r : Replica α}
      (hsynced : r.synced = true) (hlisted : AreListed listed) (hchanges : AreChanges changes)
      (hobjects : Keeps (listed ++ changes) r.objects) :
      Follows .following (earlier ++ .listing :: listed ++ .listingDone :: changes) r

namespace Follows

variable {phase : WatchPhase} {history listed changes : List (WatchEvent α)} {r : Replica α}
  {event : WatchEvent α}

theorem listing_concat (earlier : List (WatchEvent α)) (hsynced : r.synced = false)
    (hlisted : AreListed listed) (hevent : event = .failed ∨ ∃ object, event = .listed object)
    (harriving : Keeps (listed ++ [event]) r.arriving) :
    Follows .listing (earlier ++ .listing :: listed ++ [event]) r := by
  rw [List.append_assoc, List.cons_append]
  have hlisted : AreListed (listed ++ [event]) :=
    List.forall_mem_append.mpr ⟨hlisted, List.forall_mem_singleton.mpr hevent⟩
  exact .listing earlier hsynced hlisted harriving

theorem following_concat (earlier : List (WatchEvent α)) (hsynced : r.synced = true)
    (hlisted : AreListed listed) (hchanges : AreChanges changes)
    (hevent : event = .failed ∨ ∃ object, event = .applied object ∨ event = .deleted object)
    (hobjects : Keeps (listed ++ changes ++ [event]) r.objects) :
    Follows .following (earlier ++ .listing :: listed ++ .listingDone :: changes ++ [event]) r := by
  rw [List.append_assoc, List.cons_append]
  have hchanges : AreChanges (changes ++ [event]) :=
    List.forall_mem_append.mpr ⟨hchanges, List.forall_mem_singleton.mpr hevent⟩
  rw [List.append_assoc] at hobjects
  exact .following earlier hsynced hlisted hchanges hobjects

theorem failed (h : Follows phase history r) : Follows phase (history ++ [.failed]) r := by
  cases h with
  | idle hsynced => exact .idle hsynced
  | listing earlier hsynced hlisted harriving =>
    exact listing_concat earlier hsynced hlisted (.inl rfl) (harriving.idle rfl)
  | following earlier hsynced hlisted hchanges hobjects =>
    exact following_concat earlier hsynced hlisted hchanges (.inl rfl) (hobjects.idle rfl)

theorem exists_identity {object : α} (hnamed : event.isNameless = false)
    (hobject : event.object? = some object) : ∃ key, identity? object = some key := by
  rw [WatchEvent.isNameless, hobject, Option.any_some, Option.isNone_eq_false_iff] at hnamed
  exact Option.isSome_iff_exists.mp hnamed

theorem step (h : Follows phase history r) (hallows : phase.allows event = true)
    (hnamed : event.isNameless = false) :
    Follows (phase.after event) (history ++ [event]) (r.take event) := by
  cases event with
  | listing => exact .listing history rfl nofun .empty
  | failed => exact h.failed
  | listed object =>
    obtain rfl : phase = .listing := eq_of_beq hallows
    obtain ⟨key, hkey⟩ := exists_identity hnamed rfl
    cases h with
    | listing earlier hsynced hlisted harriving =>
      exact listing_concat earlier hsynced hlisted (.inr ⟨object, rfl⟩)
        (harriving.put hkey (.inl rfl))
  | listingDone =>
    obtain rfl : phase = .listing := eq_of_beq hallows
    cases h with
    | @listing earlier listed _ _ hlisted harriving =>
      refine .following earlier rfl hlisted nofun ?_
      rw [List.append_nil]
      exact harriving
  | applied object =>
    obtain rfl : phase = .following := eq_of_beq hallows
    obtain ⟨key, hkey⟩ := exists_identity hnamed rfl
    cases h with
    | following earlier hsynced hlisted hchanges hobjects =>
      exact following_concat earlier hsynced hlisted hchanges (.inr ⟨object, .inl rfl⟩)
        (hobjects.put hkey (.inr rfl))
  | deleted object =>
    obtain rfl : phase = .following := eq_of_beq hallows
    obtain ⟨key, hkey⟩ := exists_identity hnamed rfl
    cases h with
    | following earlier hsynced hlisted hchanges hobjects =>
      exact following_concat earlier hsynced hlisted hchanges (.inr ⟨object, .inr rfl⟩)
        (hobjects.remove hkey)

end Follows

end Replica

end TunnelFleet
