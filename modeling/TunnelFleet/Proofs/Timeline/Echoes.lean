import TunnelFleet.Proofs.Timeline.Debounce
import TunnelFleet.Proofs.Timeline.Distinct
import TunnelFleet.Proofs.Timeline.Values

namespace TunnelFleet

namespace Timeline

variable {α κ : Type}

/-- A source that sends more than another: `more` are its sends in their order, all the sends of the
other and some extra ones. Each extra one has the key of the send just before it, where `last` is
the key of the send before all of them. -/
inductive Echoes (key : α → κ) : Option κ → (sends extra more : List (Nat × α)) → Prop
  | nil (last : Option κ) : Echoes key last [] [] []
  | send {last : Option κ} {sends extra more : List (Nat × α)} (e : Nat × α) :
      Echoes key (some (key e.2)) sends extra more → Echoes key last (e :: sends) extra (e :: more)
  | echo {last : Option κ} {sends extra more : List (Nat × α)} (e : Nat × α) :
      last = some (key e.2) → Echoes key last sends extra more →
        Echoes key last sends (e :: extra) (e :: more)

namespace Echoes

variable {key : α → κ} {last : Option κ} {sends extra more : List (Nat × α)}

theorem sublist (h : Echoes key last sends extra more) : sends.Sublist more := by
  induction h with
  | nil => exact .slnil
  | send e _ ih => exact ih.cons_cons e
  | echo e _ _ ih => exact ih.cons e

theorem extra_sublist (h : Echoes key last sends extra more) : extra.Sublist more := by
  induction h with
  | nil => exact .slnil
  | send e _ ih => exact ih.cons e
  | echo e _ _ ih => exact ih.cons_cons e

theorem keys (h : Echoes key last sends extra more) :
    Echoes id last (sends.map fun e => (e.1, key e.2)) (extra.map fun e => (e.1, key e.2))
      (more.map fun e => (e.1, key e.2)) := by
  induction h with
  | nil => exact .nil _
  | send e _ ih => exact .send (e.1, key e.2) ih
  | echo e hlast _ ih => exact .echo (e.1, key e.2) hlast ih

end Echoes

theorem debounceFrom_perInstant {window : Nat} (hwindow : 0 < window)
    (pending : Option (Nat × Option α)) (timeline : Timeline α) :
    debounceFrom window pending (perInstant timeline) = debounceFrom window pending timeline := by
  fun_induction perInstant timeline generalizing pending with
  | case1 => rfl
  | case2 => rfl
  | case3 value time next rest ih =>
    have hnot : ¬ time + window ≤ time := by omega
    have hunfold (first : Option α) (timeline : Timeline α) :
        debounceFrom window (some (time + window, first)) ((time, .change next) :: timeline) =
          debounceFrom window (some (time + window, next)) timeline := by
      simp [debounceFrom, hnot]
    rw [ih, debounceFrom.eq_def, debounceFrom.eq_def _ pending]
    simp only [hunfold]
  | case4 time value later next rest hne ih =>
    rw [debounceFrom.eq_def, debounceFrom.eq_def _ pending]
    simp only [ih]
  | case5 time value rest hother ih =>
    rw [debounceFrom.eq_def, debounceFrom.eq_def _ pending]
    simp only [ih]

section Passing

variable [DecidableEq κ] {window : Nat} {last : Option κ} {deadline : Nat} {key : κ}
  {sends extra more : List (Nat × κ)}

/-- The keys that are passed on from a point on at which `key` is held until `deadline`, and `last`
was passed on last. -/
def passing (window : Nat) (last : Option κ) (deadline : Nat) (key : κ)
    (sends : List (Nat × κ)) : Timeline κ :=
  distinctFrom id last (debounceFrom window (some (deadline, some key)) (ofSends sends))

def passed (last : Option κ) (time : Nat) (key : κ) : Timeline κ :=
  if last = some key then [] else [publish time key]

theorem distinctFrom_publish (last : Option κ) (time : Nat) (key : κ) (rest : Timeline κ) :
    distinctFrom id last (publish time key :: rest) =
      passed last time key ++ distinctFrom id (some key) rest := by
  have hunfold : distinctFrom id last (publish time key :: rest) =
      if last = some key then distinctFrom id last rest
      else publish time key :: distinctFrom id (some key) rest := rfl
  rw [hunfold, passed]
  split
  next hsame => rw [hsame]; rfl
  next => rfl

theorem passing_nil : passing window last deadline key [] = passed last deadline key :=
  (distinctFrom_publish last deadline key []).trans (List.append_nil _)

theorem passing_of_due {e : Nat × κ} (h : deadline ≤ e.1) :
    passing window last deadline key (e :: sends) =
      passed last deadline key ++ passing window (some key) (e.1 + window) e.2 sends := by
  have hunfold : debounceFrom window (some (deadline, some key)) (ofSends (e :: sends)) =
      (if deadline ≤ e.1 then [publish deadline key] else []) ++
        debounceFrom window (some (e.1 + window, some e.2)) (ofSends sends) := rfl
  rw [passing, hunfold, if_pos h]
  exact distinctFrom_publish _ _ _ _

theorem passing_of_early {e : Nat × κ} (h : e.1 < deadline) :
    passing window last deadline key (e :: sends) =
      passing window last (e.1 + window) e.2 sends := by
  have hunfold : debounceFrom window (some (deadline, some key)) (ofSends (e :: sends)) =
      (if deadline ≤ e.1 then [publish deadline key] else []) ++
        debounceFrom window (some (e.1 + window, some e.2)) (ofSends sends) := rfl
  rw [passing, hunfold, if_neg (Nat.not_le.mpr h)]
  rfl

theorem passed_self (time : Nat) : passed (some key) time key = [] :=
  if_pos rfl

theorem passing_self (deadline other : Nat) :
    passing window (some key) deadline key sends = passing window (some key) other key sends := by
  have hnow (time : Nat) (e : Nat × κ) (rest : List (Nat × κ)) :
      passing window (some key) time key (e :: rest) =
        passing window (some key) (e.1 + window) e.2 rest := by
    rcases Nat.lt_or_ge e.1 time with hearly | hdue
    · exact passing_of_early hearly
    · rw [passing_of_due hdue, passed_self, List.nil_append]
  cases sends with
  | nil => rw [passing_nil, passing_nil, passed_self, passed_self]
  | cons e rest => rw [hnow, hnow]

theorem passing_of_forall_due (h : ∀ e ∈ sends, deadline ≤ e.1) :
    passing window last deadline key sends =
      passed last deadline key ++ passing window (some key) deadline key sends := by
  cases sends with
  | nil => rw [passing_nil, passing_nil, passed_self, List.append_nil]
  | cons e rest =>
    have hdue := h e List.mem_cons_self
    rw [passing_of_due hdue, passing_of_due hdue, passed_self, List.nil_append]

theorem published_append (first second : Timeline α) :
    published (first ++ second) = published first ++ published second :=
  List.filterMap_append

theorem passing_put_off {time : Nat} (hsends : sends.Pairwise (·.1 ≤ ·.1))
    (hle : deadline ≤ time) (h : last ≠ some key → (∀ e ∈ sends, deadline ≤ e.1) → time = deadline) :
    passing window last time key sends = passing window last deadline key sends := by
  by_cases hlast : last = some key
  · rw [hlast]
    exact passing_self _ _
  · cases sends with
    | nil => rw [h hlast nofun]
    | cons e rest =>
      rcases Nat.lt_or_ge e.1 deadline with hearly | hdue
      · rw [passing_of_early hearly, passing_of_early (Nat.lt_of_lt_of_le hearly hle)]
      · have hall : ∀ s ∈ e :: rest, deadline ≤ s.1 :=
          List.forall_mem_cons.mpr ⟨hdue, fun s hs =>
            Nat.le_trans hdue ((List.pairwise_cons.mp hsends).1 s hs)⟩
        rw [h hlast hall]

theorem passing_echoes (h : Echoes id (some key) sends extra more)
    (hmore : more.Pairwise (·.1 ≤ ·.1)) (hfrom : ∀ e ∈ more, deadline ≤ e.1 + window)
    (hquiet : ∀ e ∈ extra, ∀ new ∈ (passing window last deadline key sends).published,
      e.1 + window ≤ new.1 ∨ new.1 ≤ e.1) :
    passing window last deadline key more = passing window last deadline key sends := by
  generalize hheld : some key = held at h
  induction h generalizing last deadline key with
  | nil => rfl
  | @send _ sends extra more e h ih =>
    obtain ⟨hhead, htail⟩ := List.pairwise_cons.mp hmore
    have hnext : ∀ s ∈ more, e.1 + window ≤ s.1 + window := fun s hs =>
      Nat.add_le_add_right (hhead s hs) window
    rcases Nat.lt_or_ge e.1 deadline with hearly | hdue
    · rw [passing_of_early hearly] at hquiet ⊢
      rw [passing_of_early hearly]
      exact ih htail hnext hquiet rfl
    · rw [passing_of_due hdue, published_append] at hquiet
      rw [passing_of_due hdue, passing_of_due hdue]
      exact congrArg _ (ih htail hnext
        (fun a ha new hnew => hquiet a ha new (List.mem_append_right _ hnew)) rfl)
  | @echo _ sends extra more e hlast h ih =>
    obtain rfl : key = e.2 := Option.some.inj (hheld.trans hlast)
    obtain ⟨hhead, htail⟩ := List.pairwise_cons.mp hmore
    have hnext : ∀ s ∈ more, e.1 + window ≤ s.1 + window := fun s hs =>
      Nat.add_le_add_right (hhead s hs) window
    have hrest := fun a ha => hquiet a (List.mem_cons_of_mem _ ha)
    rcases Nat.lt_or_ge e.1 deadline with hearly | hdue
    · have hsame : passing window last (e.1 + window) e.2 sends =
          passing window last deadline e.2 sends := by
        refine passing_put_off (htail.sublist h.sublist) (hfrom e List.mem_cons_self) ?_
        intro hlast hall
        rw [passing_of_forall_due hall, passed, if_neg hlast] at hquiet
        have hbound := hquiet e List.mem_cons_self (deadline, e.2) List.mem_cons_self
        have hfirst := hfrom e List.mem_cons_self
        omega
      rw [passing_of_early hearly, ← hsame]
      exact ih htail hnext (by rwa [← hsame] at hrest) hheld
    · have hall : ∀ s ∈ sends, deadline ≤ s.1 := fun s hs =>
        Nat.le_trans hdue (hhead s (h.sublist.subset hs))
      rw [passing_of_forall_due hall, passing_self deadline (e.1 + window)] at hrest ⊢
      rw [passing_of_due hdue]
      refine congrArg _ (ih htail hnext (fun a ha new hnew => hrest a ha new ?_) hheld)
      rw [published_append]
      exact List.mem_append_right _ hnew

theorem distinct_debounce (hwindow : 0 < window) {e : Nat × κ}
    (h : (e :: sends).Pairwise (·.1 ≤ ·.1)) :
    ((ofSends (e :: sends)).debounce window).distinct id =
      passing window none (e.1 + window) e.2 sends := by
  obtain ⟨out, hout, hsettles⟩ := debounce_ofSends window h
  rw [distinct, hout, perInstant_ofSends_of_rising (hsettles.rising hwindow), ← hout, debounce,
    debounceFrom_perInstant hwindow]
  rfl

/-- A source with extra sends passes on the same keys at the same times, if no extra send comes
while a key that is passed on is held. -/
theorem distinct_debounce_echoes (hwindow : 0 < window) (h : Echoes id none sends extra more)
    (hmore : more.Pairwise (·.1 ≤ ·.1))
    (hquiet : ∀ e ∈ extra, ∀ new ∈ (((ofSends sends).debounce window).distinct id).published,
      e.1 + window ≤ new.1 ∨ new.1 ≤ e.1) :
    ((ofSends more).debounce window).distinct id = ((ofSends sends).debounce window).distinct id := by
  cases h with
  | nil => rfl
  | echo e hlast h => cases hlast
  | @send _ sends _ more e h =>
    have hfirst := hmore.sublist (h.sublist.cons_cons e)
    rw [distinct_debounce hwindow hfirst] at hquiet ⊢
    rw [distinct_debounce hwindow hmore]
    obtain ⟨hhead, htail⟩ := List.pairwise_cons.mp hmore
    exact passing_echoes h htail (fun s hs => Nat.add_le_add_right (hhead s hs) window) hquiet

end Passing

end Timeline

end TunnelFleet
