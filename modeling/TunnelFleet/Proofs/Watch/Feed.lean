import Mathlib.Data.List.Induction
import TunnelFleet.Proofs.Timeline.Sends
import TunnelFleet.Proofs.Watch.Replica
import TunnelFleet.Watch.Feed

namespace TunnelFleet

open HasMeta (identity?)
open Replica (AreListed AreChanges Follows)

variable {α : Type}

theorem Replica.changes_eq_nil_of_done
    {history earlier listed changes : List (WatchEvent α)} (hchanges : AreChanges changes)
    (h : history ++ [.listingDone] = earlier ++ .listing :: listed ++ .listingDone :: changes) :
    changes = [] := by
  rcases List.eq_nil_or_concat' changes with rfl | ⟨front, last, rfl⟩
  · rfl
  · rw [← List.cons_append, ← List.append_assoc] at h
    obtain ⟨-, hlast⟩ := List.append_inj' h rfl
    obtain rfl := List.singleton_inj.mp hlast
    rcases hchanges .listingDone (by simp) with hfailed | ⟨object, happlied | hdeleted⟩
    · cases hfailed
    · cases happlied
    · cases hdeleted

variable [HasMeta α]

/-- All objects of a listing, as the changes after it have left them: each once. -/
structure IsSnapshot (listed changes : List (WatchEvent α)) (objects : List α) : Prop where
  areListed : AreListed listed
  areChanges : AreChanges changes
  distinct : (objects.map identity?).Nodup
  mem_iff : ∀ object, object ∈ objects ↔ IsLeftBy (listed ++ changes) object

theorem IsSnapshot.mem_listed {listed : List (WatchEvent α)} {objects : List α}
    (h : IsSnapshot listed [] objects) {object : α} (hobject : object ∈ objects) :
    .listed object ∈ listed := by
  obtain ⟨before, event, later, hsplit, hevent, -⟩ := (h.mem_iff object).mp hobject
  rw [List.append_nil] at hsplit
  have hmem : event ∈ listed := by simp [hsplit]
  rcases hevent with rfl | rfl
  · exact hmem
  · rcases h.areListed _ hmem with hfailed | ⟨other, hlisted⟩
    · cases hfailed
    · cases hlisted

namespace Replica

variable {phase : WatchPhase} {history : List (WatchEvent α)} {r : Replica α}
  {event : WatchEvent α} {objects : List α}

theorem Follows.exists_snapshot (h : Follows phase history r) (hsynced : r.synced = true) :
    ∃ earlier listed changes, history = earlier ++ .listing :: listed ++ .listingDone :: changes ∧
      IsSnapshot listed changes r.objects.values := by
  cases h with
  | idle hidle =>
    rw [hidle] at hsynced
    cases hsynced
  | listing _ hlisting =>
    rw [hlisting] at hsynced
    cases hsynced
  | following earlier _ hlisted hchanges hobjects =>
    exact ⟨earlier, _, _, rfl, hlisted, hchanges, hobjects.nodup_identities, hobjects.mem_values_iff⟩

theorem Follows.isSome_step_iff (h : Follows phase history r) (hallows : phase.allows event = true) :
    (r.step event).1.isSome = true ↔
      event = .listingDone ∨ ∃ object, event = .applied object ∨ event = .deleted object := by
  cases event with
  | listing => simp [Replica.step, WatchEvent.isNews]
  | failed => simp [Replica.step, WatchEvent.isNews]
  | listed object =>
    obtain rfl : phase = .listing := eq_of_beq hallows
    cases h with
    | listing _ hsynced => simp [Replica.step, Replica.take, hsynced]
  | listingDone => simp [Replica.step, Replica.take, WatchEvent.isNews]
  | applied object =>
    obtain rfl : phase = .following := eq_of_beq hallows
    cases h with
    | following _ hsynced => simp [Replica.step, Replica.take, WatchEvent.isNews, hsynced]
  | deleted object =>
    obtain rfl : phase = .following := eq_of_beq hallows
    cases h with
    | following _ hsynced => simp [Replica.step, Replica.take, WatchEvent.isNews, hsynced]

theorem of_step_eq_some (h : (r.step event).1 = some objects) :
    (r.take event).synced = true ∧ objects = (r.take event).objects.values := by
  obtain ⟨hnews, hobjects⟩ := Option.ite_none_right_eq_some.mp h
  rw [Bool.and_eq_true] at hnews
  exact ⟨hnews.2, (Option.some.inj hobjects).symm⟩

end Replica

namespace Feed

def follow (timed : List (Nat × WatchEvent α)) : Feed α :=
  timed.foldl (fun f e => f.take e.1 e.2) {}

variable {before rest : List (Nat × WatchEvent α)} {e : Nat × WatchEvent α}

theorem follow_concat (before : List (Nat × WatchEvent α)) (e : Nat × WatchEvent α) :
    follow (before ++ [e]) = (follow before).take e.1 e.2 := by
  rw [follow, List.foldl_append]
  rfl

theorem take_of_named {f : Feed α} {time : Nat} {event : WatchEvent α} (hopen : f.closed = false)
    (hnamed : event.isNameless = false) : f.take time event =
      { f with
        replica := (f.replica.step event).2
        published := f.published ++ Timeline.publish? time (f.replica.step event).1 } := by
  simp [take, hopen, hnamed]

theorem follows (hwatch : WatchPhase.idle.tells ((before ++ rest).map (·.2)) = true)
    (hnamed : ∀ s ∈ before, s.2.isNameless = false) :
    (follow before).closed = false ∧ ∃ phase,
      Follows phase (before.map (·.2)) (follow before).replica ∧
        phase.tells (rest.map (·.2)) = true := by
  induction before using List.reverseRecOn generalizing rest with
  | nil => exact ⟨rfl, .idle, .idle rfl, hwatch⟩
  | append_singleton before e ih =>
    obtain ⟨hbefore, he⟩ := List.forall_mem_append.mp hnamed
    have hname := List.forall_mem_singleton.mp he
    rw [List.append_assoc, List.singleton_append] at hwatch
    obtain ⟨hopen, phase, hfollows, htells⟩ := ih hwatch hbefore
    obtain ⟨hallows, hrest⟩ := Bool.and_eq_true_iff.mp htells
    rw [follow_concat, take_of_named hopen hname, List.map_append]
    exact ⟨hopen, phase.after e.2, hfollows.step hallows hname, hrest⟩

/-- What a feed publishes with an event of its watch, if all objects have names. It publishes when a
listing is finished and with each change after that, and nothing with other events. What it
publishes is all there is in the last finished listing, with the changes since; an object that a new
listing lacks is gone. -/
theorem feed_publishes_whole_snapshots
    (hwatch : WatchPhase.idle.tells ((before ++ [e]).map (·.2)) = true)
    (hnamed : ∀ s ∈ before ++ [e], s.2.isNameless = false) :
    ∃ news : Option (List α),
      (follow (before ++ [e])).published =
        (follow before).published ++ Timeline.publish? e.1 news ∧
      (news.isSome = true ↔
        e.2 = .listingDone ∨ ∃ object, e.2 = .applied object ∨ e.2 = .deleted object) ∧
      ∀ objects ∈ news, ∃ earlier listed changes,
        (before ++ [e]).map (·.2) = earlier ++ .listing :: listed ++ .listingDone :: changes ∧
          IsSnapshot listed changes objects ∧
          (e.2 = .listingDone → ∀ object ∈ objects, .listed object ∈ listed) := by
  obtain ⟨hbefore, he⟩ := List.forall_mem_append.mp hnamed
  have hname := List.forall_mem_singleton.mp he
  obtain ⟨hopen, phase, hfollows, htells⟩ := follows hwatch hbefore
  obtain ⟨hallows, -⟩ := Bool.and_eq_true_iff.mp htells
  refine ⟨((follow before).replica.step e.2).1, ?_, hfollows.isSome_step_iff hallows, ?_⟩
  · rw [follow_concat, take_of_named hopen hname]
  · intro objects hnews
    obtain ⟨hsynced, rfl⟩ := Replica.of_step_eq_some hnews
    obtain ⟨earlier, listed, changes, hhistory, hsnapshot⟩ :=
      (hfollows.step hallows hname).exists_snapshot hsynced
    refine ⟨earlier, listed, changes, by rw [List.map_append]; exact hhistory, hsnapshot, ?_⟩
    intro hdone object hobject
    simp only [hdone] at hhistory
    obtain rfl := Replica.changes_eq_nil_of_done hsnapshot.areChanges hhistory
    exact hsnapshot.mem_listed hobject

/-- A config map that was there before a failure and is not listed again is gone. A listing that is
cut short shows nothing. -/
theorem feed_publishes_whole_snapshots_relisted :
    let named (name version : String) : ConfigMap :=
      { metadata := { name := some name, resourceVersion := some version } }
    let before := [(0, .listing), (1, .listed (named "a" "1")), (2, .failed), (5, .listing),
      (6, .listed (named "a" "1")), (6, .listed (named "b" "2")), (7, .listingDone),
      (20, .applied (named "a" "3")), (30, .failed), (40, .listing), (41, .listed (named "a" "3"))]
    let e := (42, .listingDone)
    WatchPhase.idle.tells ((before ++ [e]).map (·.2)) = true ∧
      (∀ s ∈ before ++ [e], s.2.isNameless = false) ∧
      (follow (before ++ [e])).published =
        .ofSends [(7, [named "a" "1", named "b" "2"]), (20, [named "a" "3", named "b" "2"]),
          (42, [named "a" "3"])] ∧
      ∃ earlier listed changes,
        (before ++ [e]).map (·.2) = earlier ++ .listing :: listed ++ .listingDone :: changes ∧
          IsSnapshot listed changes [named "a" "3"] := by
  intro named before e
  have hwatch : WatchPhase.idle.tells ((before ++ [e]).map (·.2)) = true := by decide
  have hnamed : ∀ s ∈ before ++ [e], s.2.isNameless = false := by decide
  have hbefore : (follow before).published =
      .ofSends [(7, [named "a" "1", named "b" "2"]), (20, [named "a" "3", named "b" "2"])] := by
    decide +kernel
  have hall : (follow (before ++ [e])).published =
      .ofSends [(7, [named "a" "1", named "b" "2"]), (20, [named "a" "3", named "b" "2"]),
        (42, [named "a" "3"])] := by
    decide +kernel
  obtain ⟨news, hpublished, -, hsnapshot⟩ := feed_publishes_whole_snapshots hwatch hnamed
  rw [hall, hbefore] at hpublished
  obtain rfl : news = some [named "a" "3"] := by
    cases news with
    | none => cases hpublished
    | some objects => cases hpublished; rfl
  obtain ⟨earlier, listed, changes, hhistory, hcurrent, -⟩ := hsnapshot _ rfl
  exact ⟨hwatch, hnamed, hall, earlier, listed, changes, hhistory, hcurrent⟩

end Feed

end TunnelFleet
