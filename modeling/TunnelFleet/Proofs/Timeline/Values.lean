import TunnelFleet.Proofs.Timeline.Sends
import TunnelFleet.Timeline.Basic
import TunnelFleet.Timeline.Combine
import TunnelFleet.Timeline.Debounce

namespace TunnelFleet

variable {α β γ δ : Type}

def Signal.mapValue (f : α → β) : Signal α → Signal β
  | .change value => .change (value.map f)
  | .close => .close

namespace Timeline

def mapValues (f : α → β) (timeline : Timeline α) : Timeline β :=
  List.map (fun entry => (entry.1, entry.2.mapValue f)) timeline

theorem mapValues_append (f : α → β) (first second : Timeline α) :
    mapValues f (first ++ second) = mapValues f first ++ mapValues f second :=
  List.map_append

theorem mapValues_publish? (f : α → β) (time : Nat) (value : Option α) :
    mapValues f (publish? time value) = publish? time (value.map f) := by
  cases value <;> rfl

theorem mapValues_ofSends (f : α → β) (sends : List (Nat × α)) :
    mapValues f (ofSends sends) = ofSends (sends.map fun e => (e.1, f e.2)) := by
  rw [mapValues, ofSends, ofSends, List.map_map, List.map_map]
  rfl

theorem published_mapValues (f : α → β) (timeline : Timeline α) :
    (mapValues f timeline).published = timeline.published.map fun e => (e.1, f e.2) := by
  induction timeline with
  | nil => rfl
  | cons entry rest ih =>
    obtain ⟨time, ⟨_ | value⟩ | _⟩ := entry
    · exact ih
    · exact congrArg ((time, f value) :: ·) ih
    · exact ih

/-!
No stage but the one that tells values apart looks at them: what it publishes of other values is
what it published, with these values.
-/

theorem perInstant_mapValues (f : α → β) (timeline : Timeline α) :
    perInstant (mapValues f timeline) = mapValues f (perInstant timeline) := by
  fun_induction perInstant timeline with
  | case1 => rfl
  | case2 => rfl
  | case3 value time next rest ih =>
    rw [← ih]
    exact if_pos rfl
  | case4 time value later next rest hne ih =>
    exact (if_neg hne).trans (congrArg ((time, .change (value.map f)) :: ·) ih)
  | case5 time value rest hother ih =>
    have hhead : mapValues f ((time, .change value) :: rest) =
        (time, .change (value.map f)) :: mapValues f rest := rfl
    rw [hhead, perInstant]
    · exact congrArg ((time, .change (value.map f)) :: ·) ih
    · intro later next others heq
      match rest, heq with
      | (_, .change _) :: _, _ => exact hother _ _ _ rfl

theorem debounceFrom_mapValues (f : α → β) (window : Nat) (pending : Option (Nat × Option α))
    (timeline : Timeline α) :
    debounceFrom window (pending.map fun p => (p.1, p.2.map f)) (mapValues f timeline) =
      mapValues f (debounceFrom window pending timeline) := by
  induction timeline generalizing pending with
  | nil =>
    cases pending with
    | none => rfl
    | some p => exact (mapValues_publish? f p.1 p.2).symm
  | cons entry rest ih =>
    obtain ⟨time, value | _⟩ := entry
    · have hrest := ih (some (time + window, value))
      cases pending with
      | none => exact hrest
      | some p =>
        change (if p.1 ≤ time then publish? p.1 (p.2.map f) else []) ++ _ =
          mapValues f ((if p.1 ≤ time then publish? p.1 p.2 else []) ++ _)
        rw [mapValues_append, ← hrest]
        split
        · rw [mapValues_publish?]
          rfl
        · rfl
    · cases pending with
      | none => rfl
      | some p =>
        by_cases hdue : p.1 ≤ time
        · have hheld : ¬ time < p.1 := Nat.not_lt.mpr hdue
          simpa [mapValues, debounceFrom, Signal.mapValue, Option.filter, hdue, hheld] using
            (mapValues_publish? f p.1 p.2).symm
        · have hheld : time < p.1 := Nat.not_le.mp hdue
          simpa [mapValues, debounceFrom, Signal.mapValue, Option.filter, hdue, hheld] using
            (mapValues_publish? f time p.2).symm

theorem debounce_mapValues (f : α → β) (window : Nat) (timeline : Timeline α) :
    (mapValues f timeline).debounce window = mapValues f (timeline.debounce window) := by
  rw [debounce, perInstant_mapValues]
  exact debounceFrom_mapValues f window none _

theorem distinctFrom_mapValues [DecidableEq β] (f : α → β) (last : Option β)
    (timeline : Timeline α) :
    distinctFrom id last (mapValues f timeline) = mapValues f (distinctFrom f last timeline) := by
  fun_induction distinctFrom f last timeline with
  | case1 => rfl
  | case2 => rfl
  | case3 last time rest ih => exact ih
  | case4 time value rest ih => exact (if_pos rfl).trans ih
  | case5 last time value rest hnew ih =>
    exact (if_neg hnew).trans (congrArg (publish time (f value) :: ·) ih)

theorem distinct_mapValues [DecidableEq β] (f : α → β) (timeline : Timeline α) :
    (mapValues f timeline).distinct id = mapValues f (timeline.distinct f) := by
  rw [distinct, perInstant_mapValues]
  exact distinctFrom_mapValues f none _

def Arrival.mapFirst (f : α → δ) : Arrival α β γ → Arrival δ β γ
  | .first signal => .first (signal.mapValue f)
  | .second signal => .second signal
  | .third signal => .third signal

def Newest.mapFirst (f : α → δ) (n : Newest α β γ) : Newest δ β γ :=
  ⟨n.first.map f, n.second, n.third, n.changed, n.closed⟩

theorem Newest.take_mapFirst (f : α → δ) (n : Newest α β γ) (arrival : Arrival α β γ) :
    (n.mapFirst f).take (arrival.mapFirst f) = (n.take arrival).mapFirst f := by
  obtain ⟨_ | _⟩ | ⟨_ | _⟩ | ⟨_ | _⟩ := arrival <;> rfl

theorem Newest.all?_mapFirst (f : α → δ) (n : Newest α β γ) :
    (n.mapFirst f).all? = n.all?.map (Prod.map f id) := by
  obtain ⟨first, second, third, changed, closed⟩ := n
  cases changed <;> cases first <;> cases second <;> cases third <;> rfl

theorem combineFrom_mapFirst (f : α → δ) (n : Newest α β γ)
    (events : List (Nat × Arrival α β γ)) :
    combineFrom (n.mapFirst f) (events.map fun e => (e.1, e.2.mapFirst f)) =
      mapValues (Prod.map f id) (combineFrom n events) := by
  induction events generalizing n with
  | nil => rfl
  | cons event rest ih =>
    have hhead : ((rest.map fun e => (e.1, e.2.mapFirst f)).head?.any fun next =>
        next.1 == event.1) = rest.head?.any fun next => next.1 == event.1 := by
      cases rest <;> rfl
    have hclosed : ((n.take event.2).mapFirst f).closed = (n.take event.2).closed := rfl
    have hsettle : ((n.take event.2).mapFirst f).settle = (n.take event.2).settle.mapFirst f := rfl
    rw [List.map_cons, combineFrom, combineFrom]
    simp only [Newest.take_mapFirst, hhead, hclosed, hsettle, Newest.all?_mapFirst, ih]
    split
    · rfl
    · split
      · rw [mapValues_append, mapValues_publish?]
        rfl
      · rw [mapValues_append, mapValues_publish?]

theorem arrivals_mapValues (f : α → δ) (a : Timeline α) (b : Timeline β) (c : Timeline γ) :
    arrivals (mapValues f a) b c = (arrivals a b c).map fun e => (e.1, e.2.mapFirst f) := by
  rw [arrivals, arrivals, List.map_merge, List.map_merge]
  · simp only [mapValues, List.map_map]
    rfl
  all_goals exact fun _ _ _ _ => rfl

theorem combine_mapValues (f : α → δ) (a : Timeline α) (b : Timeline β) (c : Timeline γ) :
    combine (mapValues f a) b c = mapValues (Prod.map f id) (combine a b c) := by
  rw [combine, perInstant_mapValues, arrivals_mapValues]
  exact combineFrom_mapFirst f .start _

end Timeline

end TunnelFleet
