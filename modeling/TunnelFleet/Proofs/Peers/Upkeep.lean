import TunnelFleet.Proofs.Peers.Install

namespace TunnelFleet

inductive HostCall where
  | restart (result : Except Failure Int)
  | record (snapshot : PeerSnapshot) (exitCode : Int) (result : Except Failure Unit)

namespace HostCall

def isRestart : HostCall → Bool
  | .restart _ => true
  | .record _ _ _ => false

def isRecord : HostCall → Bool
  | .restart _ => false
  | .record _ _ _ => true

def isOk : HostCall → Bool
  | .restart result => result.isOk
  | .record _ _ result => result.isOk

end HostCall

namespace HostActions

variable {σ : Type}

def journaled (host : HostActions σ) : HostActions (List HostCall × σ) where
  read s := host.read s.2
  write s file :=
    match host.write s.2 file with
    | (reply, after) => (reply, s.1, after)
  restart s :=
    match host.restart s.2 with
    | (reply, after) => (reply, s.1 ++ [.restart reply], after)
  record s snapshot exitCode :=
    match host.record s.2 snapshot exitCode with
    | (reply, after) => (reply, s.1 ++ [.record snapshot exitCode reply], after)

theorem shadows_journaled (host : HostActions σ) : host.Shadows host.journaled where
  read _ _ := rfl
  write calls _ _ := ⟨calls, rfl⟩
  restart _ _ := ⟨_, rfl⟩
  record _ _ _ _ := ⟨_, rfl⟩

/-- A host whose tunnel file can be written whenever it can be read, and is written by nobody
else. -/
structure KeepsFile (host : HostActions σ) : Prop where
  write {state : σ} {text : String} (hread : host.read state = .ok text) (file : String) :
    ∃ after, host.write state file = (.ok (), after) ∧ host.read after = .ok file
  restart (state : σ) : host.read (host.restart state).2 = host.read state
  record (state : σ) (snapshot : PeerSnapshot) (exitCode : Int) :
    host.read (host.record state snapshot exitCode).2 = host.read state

end HostActions

namespace Installer

/-- One view that an installer handles: what that comes to, the calls to the host, and the host
before and after it. -/
structure Turn (σ : Type) where
  view : List ConfigMap
  before : σ
  result : Except Failure (Option Installed)
  calls : List HostCall
  after : σ

variable {σ : Type} {host : HostActions σ} {routerKey : String}

def turn (host : HostActions σ) (routerKey : String) (seen : Seen) (state : σ)
    (view : List ConfigMap) : Turn σ where
  view := view
  before := state
  result := (handle host routerKey view seen state).1
  calls := (handle host.journaled routerKey view seen ([], state)).2.2.1
  after := (handle host routerKey view seen state).2.2

def turns (host : HostActions σ) (routerKey : String) :
    Seen → σ → List (List ConfigMap) → List (Turn σ)
  | _, _, [] => []
  | seen, state, view :: rest =>
      turn host routerKey seen state view ::
        turns host routerKey (handle host routerKey view seen state).2.1
          (handle host routerKey view seen state).2.2 rest

def shown? (routerKey : String) (view : List ConfigMap) : Option PeerSnapshot :=
  match PeerSnapshot.ofConfigMaps view routerKey with
  | .ok found => found
  | .error _ => none

/-- What comes again, comes again before anything else does. -/
def Steady (shown : List PeerSnapshot) : Prop :=
  ∀ before middle after s, shown = before ++ s :: (middle ++ s :: after) → ∀ t ∈ middle, t = s

/-- A tunnel file after some peers were shown, of which the last count. -/
def fileOf (installed : String) (shown : List PeerSnapshot) : String :=
  match shown.getLast? with
  | none => installed
  | some snapshot => assemble installed snapshot.blocks

namespace Turn

def shown (routerKey : String) (past : List (Turn σ)) : List PeerSnapshot :=
  past.filterMap fun t => shown? routerKey t.view

def lastHandled? (past : List (Turn σ)) : Option (Turn σ) :=
  (past.filter fun t => t.result.isOk).getLast?

def changesFile (host : HostActions σ) (t : Turn σ) : Bool :=
  host.read t.after != host.read t.before

structure IsIdle (t : Turn σ) : Prop where
  calls : t.calls = []
  after : t.after = t.before

/-- What a turn does to the tunnel file and to the host, in view of the turns before it. -/
structure IsKept (host : HostActions σ) (routerKey installed : String) (past : List (Turn σ))
    (t : Turn σ) : Prop where
  file : host.read t.after = .ok (fileOf installed (shown routerKey (past ++ [t])))
  unread : ∀ e, PeerSnapshot.ofConfigMaps t.view routerKey = .error e →
    t.result = .error (.table e) ∧ t.IsIdle
  again : ∀ u, lastHandled? past = some u →
    PeerSnapshot.ofConfigMaps t.view routerKey = PeerSnapshot.ofConfigMaps u.view routerKey →
    t.result = .ok none ∧ t.IsIdle
  restarts : t.calls.countP HostCall.isRestart = if t.changesFile host then 1 else 0
  records : (∀ call ∈ t.calls, call.isOk = true) →
    t.calls.countP HostCall.isRecord = if t.changesFile host then 1 else 0

end Turn

/-- All that the calls for a new file can come to. -/
inductive Restarts (snapshot : PeerSnapshot) :
    List HostCall → Except Failure (Option Installed) → Prop
  | refused (failure : Failure) : Restarts snapshot [.restart (.error failure)] (.error failure)
  | unrecorded (exitCode : Int) (failure : Failure) : Restarts snapshot
      [.restart (.ok exitCode), .record snapshot exitCode (.error failure)] (.error failure)
  | recorded (exitCode : Int) : Restarts snapshot
      [.restart (.ok exitCode), .record snapshot exitCode (.ok ())]
      (.ok (some ⟨snapshot.blocks.length, exitCode⟩))

theorem Restarts.countP_isRestart {snapshot : PeerSnapshot} {calls : List HostCall}
    {result : Except Failure (Option Installed)} (h : Restarts snapshot calls result) :
    calls.countP HostCall.isRestart = 1 := by
  cases h <;> rfl

theorem Restarts.countP_isRecord {snapshot : PeerSnapshot} {calls : List HostCall}
    {result : Except Failure (Option Installed)} (h : Restarts snapshot calls result)
    (hok : ∀ call ∈ calls, call.isOk = true) : calls.countP HostCall.isRecord = 1 := by
  cases h with
  | refused failure => cases hok _ List.mem_cons_self
  | unrecorded exitCode failure => rfl
  | recorded exitCode => rfl

/-- All that a turn can come to, when the file has this text before it. -/
inductive Takes (host : HostActions σ) (routerKey : String) (seen : Seen) (file : String)
    (t : Turn σ) (next : Seen) : Prop
  | unread {e : TableError} (hview : PeerSnapshot.ofConfigMaps t.view routerKey = .error e)
      (hresult : t.result = .error (.table e)) (hidle : t.IsIdle) (hnext : next = seen)
  | idle {found : Option PeerSnapshot}
      (hview : PeerSnapshot.ofConfigMaps t.view routerKey = .ok found)
      (hfile : ∀ s, found = some s → seen.last = some (some s) ∨ assemble file s.blocks = file)
      (hresult : t.result = .ok none) (hidle : t.IsIdle) (hnext : next = .record found)
  | rewrote {s : PeerSnapshot}
      (hview : PeerSnapshot.ofConfigMaps t.view routerKey = .ok (some s))
      (hnew : seen.last ≠ some (some s)) (hchanged : assemble file s.blocks ≠ file)
      (hafter : host.read t.after = .ok (assemble file s.blocks))
      (hrestarts : Restarts s t.calls t.result)
      (hnext : next = if t.result.isOk then .record (some s) else seen)

theorem exists_restarts (hkeeps : host.KeepsFile) (snapshot : PeerSnapshot) (state : σ) :
    ∃ calls result after, Restarts snapshot calls result ∧ host.read after = host.read state ∧
      restart host.journaled snapshot ([], state) = (result, calls, after) := by
  have hrestarted := hkeeps.restart state
  rcases hrestart : host.restart state with ⟨failure | exitCode, mid⟩ <;>
    rw [hrestart] at hrestarted
  · refine ⟨_, _, mid, .refused failure, hrestarted, ?_⟩
    simp [restart, HostActions.journaled, hrestart]
  · have hrecorded := (hkeeps.record mid snapshot exitCode).trans hrestarted
    rcases hrecord : host.record mid snapshot exitCode with ⟨failure | _, after⟩ <;>
      rw [hrecord] at hrecorded
    · refine ⟨_, _, after, .unrecorded exitCode failure, hrecorded, ?_⟩
      simp [restart, HostActions.journaled, hrestart, hrecord]
    · refine ⟨_, _, after, .recorded exitCode, hrecorded, ?_⟩
      simp [restart, HostActions.journaled, hrestart, hrecord]

section Handle

variable {seen : Seen} {state mid after : σ} {view : List ConfigMap} {file : String}
  {found : Option PeerSnapshot} {s : PeerSnapshot}
  {result : Except Failure (Option Installed)}

theorem handle_of_error {e : TableError}
    (hview : PeerSnapshot.ofConfigMaps view routerKey = .error e) :
    handle host routerKey view seen state = (.error (.table e), seen, state) := by
  simp [handle, hview]

theorem handle_of_seen (hview : PeerSnapshot.ofConfigMaps view routerKey = .ok found)
    (hseen : seen.last = some found) :
    handle host routerKey view seen state = (.ok none, .record found, state) := by
  obtain ⟨last⟩ := seen
  obtain rfl : last = some found := hseen
  simp [handle, hview, Seen.isNew, Seen.record]

theorem handle_of_none (hview : PeerSnapshot.ofConfigMaps view routerKey = .ok none)
    (hnew : seen.last ≠ some none) :
    handle host routerKey view seen state = (.ok none, .record none, state) := by
  simp [handle, hview, Seen.isNew, hnew]

theorem handle_of_same (hview : PeerSnapshot.ofConfigMaps view routerKey = .ok (some s))
    (hnew : seen.last ≠ some (some s)) (hread : host.read state = .ok file)
    (hsame : assemble file s.blocks = file) :
    handle host routerKey view seen state = (.ok none, .record (some s), state) := by
  simp [handle, hview, Seen.isNew, hnew, install, hread, hsame]

theorem handle_of_changed (hview : PeerSnapshot.ofConfigMaps view routerKey = .ok (some s))
    (hnew : seen.last ≠ some (some s)) (hread : host.read state = .ok file)
    (hchanged : assemble file s.blocks ≠ file)
    (hwrite : host.write state (assemble file s.blocks) = (.ok (), mid))
    (hrestart : restart host s mid = (result, after)) :
    handle host routerKey view seen state =
      (result, if result.isOk then .record (some s) else seen, after) := by
  simp only [handle, hview, Seen.isNew, install, hread, hwrite, hrestart, if_neg hchanged]
  rcases result with failure | outcome <;> simp [hnew, Except.isOk, Except.toBool]

theorem turn_eq {next : Seen} {calls : List HostCall}
    (h : handle host.journaled routerKey view seen ([], state) = (result, next, calls, after)) :
    handle host routerKey view seen state = (result, next, after) ∧
      turn host routerKey seen state view = ⟨view, state, result, calls, after⟩ := by
  obtain ⟨notes, hnotes⟩ :=
    handle_noting host.shadows_journaled routerKey view seen [] state
  obtain ⟨hresult, hrest⟩ := Prod.mk.inj (h.symm.trans hnotes)
  obtain ⟨hnext, hrest⟩ := Prod.mk.inj hrest
  obtain ⟨-, hafter⟩ := Prod.mk.inj hrest
  refine ⟨by rw [hresult, hnext, hafter], ?_⟩
  rw [turn, h, ← hresult, ← hafter]

end Handle

theorem takes (hkeeps : host.KeepsFile) (routerKey : String) (seen : Seen) {state : σ}
    {file : String} (hread : host.read state = .ok file) (view : List ConfigMap) :
    Takes host routerKey seen file (turn host routerKey seen state view)
      (handle host routerKey view seen state).2.1 := by
  cases hview : PeerSnapshot.ofConfigMaps view routerKey with
  | error e =>
    have hcalls : handle host.journaled routerKey view seen ([], state) =
        (.error (.table e), seen, [], state) := handle_of_error hview
    obtain ⟨hhandle, hturn⟩ := turn_eq hcalls
    rw [hturn, hhandle]
    exact .unread hview rfl ⟨rfl, rfl⟩ rfl
  | ok found =>
    by_cases hseen : seen.last = some found
    · have hcalls : handle host.journaled routerKey view seen ([], state) =
          (.ok none, .record found, [], state) := handle_of_seen hview hseen
      obtain ⟨hhandle, hturn⟩ := turn_eq hcalls
      rw [hturn, hhandle]
      exact .idle hview (fun s hs => .inl (hs ▸ hseen)) rfl ⟨rfl, rfl⟩ rfl
    cases found with
    | none =>
      have hcalls : handle host.journaled routerKey view seen ([], state) =
          (.ok none, .record none, [], state) := handle_of_none hview hseen
      obtain ⟨hhandle, hturn⟩ := turn_eq hcalls
      rw [hturn, hhandle]
      exact .idle hview (fun s hs => by cases hs) rfl ⟨rfl, rfl⟩ rfl
    | some s =>
      have hagain : host.journaled.read ([], state) = .ok file := hread
      by_cases hsame : assemble file s.blocks = file
      · obtain ⟨hhandle, hturn⟩ := turn_eq (handle_of_same hview hseen hagain hsame)
        rw [hturn, hhandle]
        exact .idle hview (fun _ hs => Option.some.inj hs ▸ .inr hsame) rfl ⟨rfl, rfl⟩ rfl
      · obtain ⟨mid, hwrite, hmid⟩ := hkeeps.write hread (assemble file s.blocks)
        obtain ⟨calls, result, after, hrestarts, hafter, hrestart⟩ := exists_restarts hkeeps s mid
        have hwritten : host.journaled.write ([], state) (assemble file s.blocks) =
            (.ok (), [], mid) := by
          simp [HostActions.journaled, hwrite]
        obtain ⟨hhandle, hturn⟩ :=
          turn_eq (handle_of_changed hview hseen hagain hsame hwritten hrestart)
        rw [hturn, hhandle]
        exact .rewrote hview hseen hsame (hafter.trans hmid) hrestarts rfl

section Shown

variable {installed : String} {shown more : List PeerSnapshot} {s : PeerSnapshot}

theorem isPeerBlock_of_shown? {view : List ConfigMap} (h : shown? routerKey view = some s) :
    ∀ block ∈ s.blocks, IsPeerBlock block := by
  unfold shown? at h
  split at h
  next found hview => exact PeerSnapshot.isPeerBlock (h ▸ hview)
  next => cases h

theorem Steady.of_nodup (h : shown.Nodup) : Steady shown := by
  rintro before middle after s rfl
  have hnot := (List.nodup_cons.mp (List.nodup_append.mp h).2.1).1
  exact absurd (List.mem_append_right _ List.mem_cons_self) hnot

theorem Steady.of_append (h : Steady (shown ++ more)) : Steady shown := by
  rintro before middle after s rfl
  exact h before middle (after ++ more) s (by simp)

theorem fileOf_concat (installed : String) (shown : List PeerSnapshot) (s : PeerSnapshot) :
    fileOf installed (shown ++ [s]) = assemble installed s.blocks := by
  rw [fileOf, List.getLast?_concat]

theorem assemble_fileOf (hshown : ∀ s ∈ shown, ∀ block ∈ s.blocks, IsPeerBlock block)
    (blocks : List String) :
    assemble (fileOf installed shown) blocks = assemble installed blocks := by
  rcases List.eq_nil_or_concat shown with rfl | ⟨earlier, s, rfl⟩
  · rfl
  · rw [List.concat_eq_append] at hshown ⊢
    rw [fileOf_concat, assemble_assemble]
    exact hshown s (List.mem_append_right _ (List.mem_singleton.mpr rfl))

theorem Steady.fileOf_eq (h : Steady (shown ++ [s])) (hs : s ∈ shown) :
    fileOf installed shown = assemble installed s.blocks := by
  obtain ⟨before, middle, rfl⟩ := List.append_of_mem hs
  have hmiddle : ∀ t ∈ middle, t = s := h before middle [] s (by simp)
  rcases List.eq_nil_or_concat middle with rfl | ⟨passed, t, rfl⟩
  · exact fileOf_concat _ _ _
  · rw [List.concat_eq_append] at hmiddle ⊢
    rw [← hmiddle t (List.mem_append_right _ (List.mem_singleton.mpr rfl)), ← List.cons_append,
      ← List.append_assoc]
    exact fileOf_concat _ _ _

end Shown

namespace Turn

variable {past : List (Turn σ)} {t : Turn σ}

theorem shown_concat (routerKey : String) (past : List (Turn σ)) (t : Turn σ) :
    shown routerKey (past ++ [t]) = shown routerKey past ++ (shown? routerKey t.view).toList := by
  cases hview : shown? routerKey t.view <;> simp [shown, hview]

theorem lastHandled?_concat (past : List (Turn σ)) (t : Turn σ) : lastHandled? (past ++ [t]) =
    if t.result.isOk then some t else lastHandled? past := by
  cases hok : t.result.isOk <;> simp [lastHandled?, hok]

theorem IsIdle.not_changesFile (h : t.IsIdle) : t.changesFile host = false := by
  simp [changesFile, h.after]

theorem isPeerBlock_of_mem_shown {s : PeerSnapshot} (h : s ∈ shown routerKey past) :
    ∀ block ∈ s.blocks, IsPeerBlock block := by
  obtain ⟨t, -, hs⟩ := List.mem_filterMap.mp h
  exact isPeerBlock_of_shown? hs

end Turn

/-- Where an installer stands after some turns: its file is that of the peers shown last, and what
it has seen is the view that it last handled without a failure. -/
structure Stands (host : HostActions σ) (routerKey installed : String) (past : List (Turn σ))
    (seen : Seen) (state : σ) : Prop where
  file : host.read state = .ok (fileOf installed (Turn.shown routerKey past))
  seen : seen.last.map Except.ok =
    (Turn.lastHandled? past).map fun u => PeerSnapshot.ofConfigMaps u.view routerKey

section Step

variable {installed : String} {past : List (Turn σ)} {t : Turn σ} {seen next : Seen}

theorem Stands.mem_shown {s : PeerSnapshot} {state : σ}
    (h : Stands host routerKey installed past seen state) (hseen : seen.last = some (some s)) :
    s ∈ Turn.shown routerKey past := by
  have hlast := h.seen
  rw [hseen, Option.map_some] at hlast
  obtain ⟨u, hu, hview⟩ := Option.map_eq_some_iff.mp hlast.symm
  have hpast := (List.mem_filter.mp (List.mem_of_getLast? hu)).1
  exact List.mem_filterMap.mpr ⟨u, hpast, by rw [shown?, hview]⟩

namespace Takes

theorem read_after
    (h : Takes host routerKey seen (fileOf installed (Turn.shown routerKey past)) t next)
    (hstands : Stands host routerKey installed past seen t.before)
    (hsteady : Steady (Turn.shown routerKey (past ++ [t]))) :
    host.read t.after = .ok (fileOf installed (Turn.shown routerKey (past ++ [t]))) := by
  have hassemble (blocks : List String) :
      assemble (fileOf installed (Turn.shown routerKey past)) blocks = assemble installed blocks :=
    assemble_fileOf (fun _ hs => Turn.isPeerBlock_of_mem_shown hs) blocks
  cases h with
  | unread hview hresult hidle hnext =>
    have hshown : shown? routerKey t.view = none := by rw [shown?, hview]
    rw [hidle.after, Turn.shown_concat, hshown, Option.toList_none, List.append_nil]
    exact hstands.file
  | @idle found hview hfile hresult hidle hnext =>
    have hshown : shown? routerKey t.view = found := by rw [shown?, hview]
    rw [Turn.shown_concat, hshown] at hsteady ⊢
    rw [hidle.after, hstands.file]
    cases found with
    | none => rw [Option.toList_none, List.append_nil]
    | some s =>
      rw [Option.toList_some] at hsteady ⊢
      rw [fileOf_concat]
      rcases hfile s rfl with hseen | hsame
      · rw [hsteady.fileOf_eq (hstands.mem_shown hseen)]
      · rw [← hsame, hassemble]
  | @rewrote s hview hnew hchanged hafter hrestarts hnext =>
    have hshown : shown? routerKey t.view = some s := by rw [shown?, hview]
    rw [hafter, hassemble, Turn.shown_concat, hshown, Option.toList_some, fileOf_concat]

theorem stands
    (h : Takes host routerKey seen (fileOf installed (Turn.shown routerKey past)) t next)
    (hstands : Stands host routerKey installed past seen t.before)
    (hsteady : Steady (Turn.shown routerKey (past ++ [t]))) :
    Stands host routerKey installed (past ++ [t]) next t.after := by
  refine ⟨h.read_after hstands hsteady, ?_⟩
  rw [Turn.lastHandled?_concat]
  cases h with
  | unread hview hresult hidle hnext =>
    rw [hnext, hresult]
    exact hstands.seen
  | idle hview hfile hresult hidle hnext =>
    have hok : t.result.isOk = true := by rw [hresult]; rfl
    rw [hnext, if_pos hok, Option.map_some, hview]
    rfl
  | rewrote hview hnew hchanged hafter hrestarts hnext =>
    rw [hnext]
    split
    next => rw [Option.map_some, hview]; rfl
    next => exact hstands.seen

theorem isIdle_or_restarts {file : String} (h : Takes host routerKey seen file t next)
    (hread : host.read t.before = .ok file) :
    t.IsIdle ∨ ∃ s, Restarts s t.calls t.result ∧ t.changesFile host = true := by
  cases h with
  | unread _ _ hidle _ => exact .inl hidle
  | idle _ _ _ hidle _ => exact .inl hidle
  | @rewrote s _ _ hchanged hafter hrestarts _ =>
    refine .inr ⟨s, hrestarts, ?_⟩
    simpa [Turn.changesFile, hafter, hread] using hchanged

theorem isKept
    (h : Takes host routerKey seen (fileOf installed (Turn.shown routerKey past)) t next)
    (hstands : Stands host routerKey installed past seen t.before)
    (hsteady : Steady (Turn.shown routerKey (past ++ [t]))) :
    t.IsKept host routerKey installed past where
  file := h.read_after hstands hsteady
  unread e he := by
    cases h with
    | unread hview hresult hidle _ =>
      obtain rfl := Except.error.inj (he.symm.trans hview)
      exact ⟨hresult, hidle⟩
    | idle hview => cases he.symm.trans hview
    | rewrote hview => cases he.symm.trans hview
  again u hu hsame := by
    have hlast := hstands.seen
    rw [hu, Option.map_some, ← hsame] at hlast
    cases h with
    | unread hview =>
      obtain ⟨found, -, hfound⟩ := Option.map_eq_some_iff.mp hlast
      cases hfound.trans hview
    | idle _ _ hresult hidle _ => exact ⟨hresult, hidle⟩
    | rewrote hview hnew =>
      obtain ⟨found, hseen, hfound⟩ := Option.map_eq_some_iff.mp hlast
      obtain rfl := Except.ok.inj (hfound.trans hview)
      exact absurd hseen hnew
  restarts := by
    rcases h.isIdle_or_restarts hstands.file with hidle | ⟨s, hrestarts, hchanges⟩
    · rw [hidle.calls, hidle.not_changesFile]
      rfl
    · rw [hrestarts.countP_isRestart, hchanges, if_pos rfl]
  records hok := by
    rcases h.isIdle_or_restarts hstands.file with hidle | ⟨s, hrestarts, hchanges⟩
    · rw [hidle.calls, hidle.not_changesFile]
      rfl
    · rw [hrestarts.countP_isRecord hok, hchanges, if_pos rfl]

end Takes

end Step

section Run

variable {installed : String} {past : List (Turn σ)} {seen : Seen} {state : σ}
  {views : List (List ConfigMap)}

theorem map_view_turns (host : HostActions σ) (routerKey : String) (seen : Seen) (state : σ)
    (views : List (List ConfigMap)) :
    (turns host routerKey seen state views).map Turn.view = views := by
  induction views generalizing seen state with
  | nil => rfl
  | cons view rest ih => exact congrArg (view :: ·) (ih _ _)

theorem Stands.isKept_turns (hkeeps : host.KeepsFile)
    (h : Stands host routerKey installed past seen state)
    (hsteady : Steady (Turn.shown routerKey past ++ views.filterMap (shown? routerKey)))
    {earlier later : List (Turn σ)} {t : Turn σ}
    (hsplit : turns host routerKey seen state views = earlier ++ t :: later) :
    t.IsKept host routerKey installed (past ++ earlier) := by
  -- on the views, with `Stands` for what the turns so far have left behind
  induction views generalizing past seen state earlier with
  | nil => simp [turns] at hsplit
  | cons view rest ih =>
    have htakes := takes hkeeps routerKey seen h.file view
    have hall : Steady (Turn.shown routerKey (past ++ [turn host routerKey seen state view]) ++
        rest.filterMap (shown? routerKey)) := by
      rw [Turn.shown_concat, List.append_assoc]
      cases hview : shown? routerKey view <;> simpa [turn, hview] using hsteady
    rw [turns] at hsplit
    cases earlier with
    | nil =>
      obtain ⟨rfl, -⟩ := List.cons.inj hsplit
      rw [List.append_nil]
      exact htakes.isKept h hall.of_append
    | cons first passed =>
      obtain ⟨rfl, hrest⟩ := List.cons.inj hsplit
      rw [List.append_cons]
      exact ih (htakes.stands h hall.of_append) hall hrest

theorem countP_flatMap_calls {ts : List (Turn σ)} {p : HostCall → Bool} {q : Turn σ → Bool}
    (h : ∀ t ∈ ts, t.calls.countP p = if q t then 1 else 0) :
    (ts.flatMap Turn.calls).countP p = ts.countP q := by
  induction ts with
  | nil => rfl
  | cons t rest ih =>
    obtain ⟨ht, hrest⟩ := List.forall_mem_cons.mp h
    rw [List.flatMap_cons, List.countP_append, List.countP_cons, ht, ih hrest, Nat.add_comm]

end Run

/-- A tunnel file that nobody else writes is at all times that of the peers shown last. A view
without a table that can be read, or with what was handled last, is left at once. There is one
restart for each change of the file, and one record if no call to the host fails. -/
theorem tunnel_file_is_kept (hkeeps : host.KeepsFile) {start : σ} {installed : String}
    (hread : host.read start = .ok installed) {views : List (List ConfigMap)}
    (hsteady : Steady (views.filterMap (shown? routerKey))) :
    let ts := turns host routerKey .nothing start views
    ts.map Turn.view = views ∧
      (∀ earlier t later, ts = earlier ++ t :: later → t.IsKept host routerKey installed earlier) ∧
      (ts.flatMap Turn.calls).countP HostCall.isRestart = ts.countP (Turn.changesFile host) ∧
      ((∀ call ∈ ts.flatMap Turn.calls, call.isOk = true) →
        (ts.flatMap Turn.calls).countP HostCall.isRecord = ts.countP (Turn.changesFile host)) := by
  intro ts
  have hstart : Stands host routerKey installed [] .nothing start := ⟨hread, rfl⟩
  have hkept : ∀ earlier t later, ts = earlier ++ t :: later →
      t.IsKept host routerKey installed earlier :=
    fun earlier t later hsplit => hstart.isKept_turns hkeeps hsteady hsplit
  have hmem : ∀ t ∈ ts, ∃ earlier, t.IsKept host routerKey installed earlier := by
    intro t ht
    obtain ⟨earlier, later, hsplit⟩ := List.append_of_mem ht
    exact ⟨earlier, hkept earlier t later hsplit⟩
  refine ⟨map_view_turns _ _ _ _ _, hkept, countP_flatMap_calls fun t ht => ?_,
    fun hok => countP_flatMap_calls fun t ht => ?_⟩
  · obtain ⟨earlier, h⟩ := hmem t ht
    exact h.restarts
  · obtain ⟨earlier, h⟩ := hmem t ht
    exact h.records fun call hcall => hok call (List.mem_flatMap.mpr ⟨t, ht, hcall⟩)

theorem keepsFile_actions (answers : SiteAnswers) : (Site.actions answers).KeepsFile where
  write _ _ := ⟨_, rfl, rfl⟩
  restart _ := rfl
  record site snapshot exitCode := by
    unfold Site.actions
    dsimp only
    split <;> rfl

def tableView (version text : String) : List ConfigMap :=
  [{
    metadata := {
      annotations := some (Dict.empty.insert Names.purposeNote Names.purposeAllocations)
      resourceVersion := some version }
    data := some (Dict.empty.insert Names.tableKey text) }]

def mixedViews : List (List ConfigMap) :=
  let table : Table := ⟨[⟨"K", "R", "n", "10.1.0.1", "10.2.1.0/24"⟩]⟩
  [tableView "1" table.text, tableView "2" "NodeKey\nK\n", tableView "3" table.text]

/-- The restart fails, and a new version of the same table does not make up for it. -/
theorem tunnel_file_is_kept_mixed :
    let host := Site.actions ⟨.error .notFound, .ok ()⟩
    let ts := turns host "R" .nothing Post.bareSite mixedViews
    host.KeepsFile ∧ host.read Post.bareSite = .ok "[Interface]\n" ∧
      Steady (mixedViews.filterMap (shown? "R")) ∧
      ts.map (fun t => (t.result.isOk, t.calls.length, t.changesFile host)) =
        [(false, 1, true), (false, 0, false), (true, 0, false)] ∧
      (∀ earlier t later, ts = earlier ++ t :: later →
        t.IsKept host "R" "[Interface]\n" earlier) ∧
      (ts.flatMap Turn.calls).countP HostCall.isRestart = ts.countP (Turn.changesFile host) := by
  intro host ts
  have hkeeps := keepsFile_actions ⟨.error .notFound, .ok ()⟩
  have hread : host.read Post.bareSite = .ok "[Interface]\n" := rfl
  have hsteady : Steady (mixedViews.filterMap (shown? "R")) := .of_nodup (by decide +kernel)
  obtain ⟨-, hkept, hrestarts, -⟩ := tunnel_file_is_kept hkeeps hread hsteady
  exact ⟨hkeeps, hread, hsteady, by decide +kernel, hkept, hrestarts⟩

end Installer
end TunnelFleet
