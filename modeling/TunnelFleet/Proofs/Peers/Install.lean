import Mathlib.Data.List.Induction
import TunnelFleet.Peers.Installer
import TunnelFleet.Proofs.Peers.Assemble

namespace TunnelFleet

/-- What is done on a host that the running interface depends on: its file is rewritten, or it is to
be restarted, which ends with an exit code or does not. -/
inductive Deed where
  | rewrote
  | restarted (ended : Bool)
deriving DecidableEq

/-- Every rewrite was followed by a restart that ended with an exit code. The newest deed comes
first. -/
def IsCaughtUp (deeds : List Deed) : Prop :=
  ∀ newer older, deeds = newer ++ .rewrote :: older → .restarted true ∈ newer

theorem isCaughtUp_nil : IsCaughtUp [] := by
  intro newer older h
  simp at h

theorem isCaughtUp_restart_iff {ended : Bool} {deeds : List Deed} :
    IsCaughtUp (.restarted ended :: .rewrote :: deeds) ↔ ended = true := by
  constructor
  · intro h
    have hmem := h [.restarted ended] deeds rfl
    simpa using hmem
  · rintro rfl newer older h
    cases newer with
    | nil => cases h
    | cons deed rest =>
      obtain ⟨rfl, -⟩ := List.cons.inj h
      exact List.mem_cons_self

/-- A host that keeps an account of what is done on it. -/
def HostActions.logged {σ : Type} (host : HostActions σ) : HostActions (List Deed × σ) where
  read s := host.read s.2
  write s file :=
    match host.write s.2 file with
    | (.ok (), after) => (.ok (), .rewrote :: s.1, after)
    | (.error fault, after) => (.error fault, s.1, after)
  restart s :=
    match host.restart s.2 with
    | (.ok exitCode, after) => (.ok exitCode, .restarted true :: s.1, after)
    | (.error failure, after) => (.error failure, .restarted false :: s.1, after)
  record s snapshot exitCode :=
    match host.record s.2 snapshot exitCode with
    | (reply, after) => (reply, s.1, after)

/-- A host that keeps notes beside its state and answers every call as the other host does. -/
structure HostActions.Shadows {β σ : Type} (host : HostActions σ) (noting : HostActions (β × σ)) :
    Prop where
  read (notes : β) (state : σ) : noting.read (notes, state) = host.read state
  write (notes : β) (state : σ) (file : String) : ∃ after,
    noting.write (notes, state) file =
      ((host.write state file).1, after, (host.write state file).2)
  restart (notes : β) (state : σ) : ∃ after,
    noting.restart (notes, state) = ((host.restart state).1, after, (host.restart state).2)
  record (notes : β) (state : σ) (snapshot : PeerSnapshot) (exitCode : Int) : ∃ after,
    noting.record (notes, state) snapshot exitCode =
      ((host.record state snapshot exitCode).1, after, (host.record state snapshot exitCode).2)

namespace Installer

variable {β σ : Type} {host : HostActions σ} {noting : HostActions (β × σ)}

theorem restart_noting (h : host.Shadows noting) (snapshot : PeerSnapshot) (notes : β)
    (state : σ) : ∃ after, restart noting snapshot (notes, state) =
      ((restart host snapshot state).1, after, (restart host snapshot state).2) := by
  obtain ⟨mid, hmid⟩ := h.restart notes state
  unfold restart
  rw [hmid]
  rcases host.restart state with ⟨failure | exitCode, rest⟩
  · exact ⟨mid, rfl⟩
  · obtain ⟨last, hlast⟩ := h.record mid rest snapshot exitCode
    refine ⟨last, ?_⟩
    dsimp only
    rw [hlast]
    rcases host.record rest snapshot exitCode with ⟨failure | _, after⟩ <;> rfl

theorem install_noting (h : host.Shadows noting) (snapshot : PeerSnapshot) (notes : β)
    (state : σ) : ∃ after, install noting snapshot (notes, state) =
      ((install host snapshot state).1, after, (install host snapshot state).2) := by
  unfold install
  rw [h.read]
  split
  · exact ⟨notes, rfl⟩
  next installed _ =>
    dsimp only
    split
    · exact ⟨notes, rfl⟩
    · obtain ⟨mid, hmid⟩ := h.write notes state (assemble installed snapshot.blocks)
      rw [hmid]
      rcases host.write state (assemble installed snapshot.blocks) with ⟨fault | _, rest⟩
      · exact ⟨mid, rfl⟩
      · exact restart_noting h snapshot mid rest

theorem handle_noting (h : host.Shadows noting) (routerKey : String) (configMaps : List ConfigMap)
    (seen : Seen) (notes : β) (state : σ) :
    ∃ after, handle noting routerKey configMaps seen (notes, state) =
      ((handle host routerKey configMaps seen state).1,
        (handle host routerKey configMaps seen state).2.1, after,
        (handle host routerKey configMaps seen state).2.2) := by
  unfold handle
  split
  · exact ⟨notes, rfl⟩
  next found _ =>
    split
    · exact ⟨notes, rfl⟩
    · cases found with
      | none => exact ⟨notes, rfl⟩
      | some snapshot =>
        obtain ⟨after, hafter⟩ := install_noting h snapshot notes state
        refine ⟨after, ?_⟩
        dsimp only
        rw [hafter]
        rcases install host snapshot state with ⟨failure | _, rest⟩ <;> rfl

/-- An installer at work: what it installed last, its host, and what was done there. -/
structure Post where
  seen : Seen
  site : Site
  deeds : List Deed

/-- A view that comes to an installer, and how its host takes the calls then. -/
structure Visit where
  configMaps : List ConfigMap
  answers : SiteAnswers

namespace Post

def fresh (site : Site) : Post :=
  ⟨Seen.nothing, site, []⟩

def visit (routerKey : String) (p : Post) (v : Visit) : Except Failure (Option Installed) × Post :=
  match handle (Site.actions v.answers).logged routerKey v.configMaps p.seen (p.deeds, p.site) with
  | (result, seen, deeds, site) => (result, ⟨seen, site, deeds⟩)

def visits (routerKey : String) (p : Post) (vs : List Visit) : Post :=
  vs.foldl (fun p v => (p.visit routerKey v).2) p

def rewrite? (routerKey : String) (p : Post) (configMaps : List ConfigMap) :
    Option (PeerSnapshot × String) :=
  match PeerSnapshot.ofConfigMaps configMaps routerKey, p.site.read with
  | .ok (some snapshot), .ok installed =>
      if p.seen.isNew (some snapshot) ∧ assemble installed snapshot.blocks ≠ installed then
        some (snapshot, assemble installed snapshot.blocks)
      else none
  | _, _ => none

variable {routerKey : String} {p : Post} {v : Visit}

theorem read_logged (answers : SiteAnswers) (deeds : List Deed) (site : Site) :
    (Site.actions answers).logged.read (deeds, site) = site.read :=
  rfl

theorem of_rewrite? {configMaps : List ConfigMap} {snapshot : PeerSnapshot} {file : String}
    (h : p.rewrite? routerKey configMaps = some (snapshot, file)) :
    ∃ installed, PeerSnapshot.ofConfigMaps configMaps routerKey = .ok (some snapshot) ∧
      p.site.read = .ok installed ∧ p.seen.isNew (some snapshot) = true ∧
      assemble installed snapshot.blocks = file ∧ file ≠ installed := by
  unfold rewrite? at h
  split at h
  next found installed hmaps hread =>
    split at h
    next hcond =>
      obtain ⟨rfl, rfl⟩ := Prod.mk.inj (Option.some.inj h)
      exact ⟨installed, hmaps, hread, hcond.1, rfl, hcond.2⟩
    next => cases h
  next => cases h

theorem visit_of_no_rewrite (h : p.rewrite? routerKey v.configMaps = none) :
    (p.visit routerKey v).2.deeds = p.deeds ∧ (p.visit routerKey v).2.site = p.site ∧
      ∀ installed, (p.visit routerKey v).1 ≠ .ok (some installed) := by
  unfold rewrite? at h
  unfold visit handle
  cases hmaps : PeerSnapshot.ofConfigMaps v.configMaps routerKey with
  | error e => simp
  | ok found =>
    by_cases hnew : p.seen.isNew found = true
    · cases found with
      | none => simp [hnew]
      | some snapshot =>
        cases hread : p.site.read with
        | error fault => simp [hnew, install, read_logged, hread]
        | ok installed =>
          have hsame : assemble installed snapshot.blocks = installed := by
            simpa [hmaps, hread, hnew] using h
          simp [hnew, install, read_logged, hread, hsame]
    · simp [hnew]

theorem visit_of_rewrite {snapshot : PeerSnapshot} {file : String}
    (h : p.rewrite? routerKey v.configMaps = some (snapshot, file)) :
    (p.visit routerKey v).2.deeds = .restarted v.answers.restart.isOk :: .rewrote :: p.deeds ∧
      (p.visit routerKey v).2.site.file = some (.text file) ∧
      (v.answers.restart.isOk = false →
        (p.visit routerKey v).1.isOk = false ∧ (p.visit routerKey v).2.seen = p.seen) := by
  obtain ⟨installed, hmaps, hread, hnew, hfile, hchanged⟩ := of_rewrite? h
  unfold visit handle
  rcases hrestart : v.answers.restart with fault | exitCode
  · simp [hmaps, hnew, install, hread, hchanged, restart, HostActions.logged,
      Site.actions, hrestart, hfile, Except.isOk, Except.toBool]
  · rcases hrecord : v.answers.record with fault | _ <;>
    simp [hmaps, hnew, install, hread, hchanged, restart, HostActions.logged,
      Site.actions, hrestart, hrecord, hfile, Except.isOk, Except.toBool]

theorem visit_of_same_file {snapshot : PeerSnapshot} {installed : String}
    (hmaps : PeerSnapshot.ofConfigMaps v.configMaps routerKey = .ok (some snapshot))
    (hread : p.site.read = .ok installed)
    (hsame : assemble installed snapshot.blocks = installed) :
    (p.visit routerKey v).1 = .ok none ∧ (p.visit routerKey v).2.deeds = p.deeds := by
  unfold visit handle
  by_cases hnew : p.seen.isNew (some snapshot) = true
  · simp [hmaps, hnew, install, read_logged, hread, hsame]
  · simp [hmaps, hnew]

theorem visit_again {rewritten : PeerSnapshot × String}
    (h : p.rewrite? routerKey v.configMaps = some rewritten) (answers : SiteAnswers) :
    ((p.visit routerKey v).2.visit routerKey { v with answers }).1 = .ok none ∧
      ((p.visit routerKey v).2.visit routerKey { v with answers }).2.deeds =
        (p.visit routerKey v).2.deeds := by
  obtain ⟨snapshot, file⟩ := rewritten
  obtain ⟨installed, hmaps, -, -, hfile, -⟩ := of_rewrite? h
  have hread : (p.visit routerKey v).2.site.read = .ok file := by
    rw [Site.read, (visit_of_rewrite h).2.1]
    rfl
  have hsame : assemble file snapshot.blocks = file := by
    rw [← hfile, assemble_assemble _ _ (PeerSnapshot.isPeerBlock hmaps)]
  exact visit_of_same_file hmaps hread hsame

/-- Of the views for which the file was rewritten, the last met a restart that failed. -/
def IsLeftBehind (routerKey : String) (p : Post) (vs : List Visit) : Prop :=
  ∃ before failed later, vs = before ++ failed :: later ∧
    ((p.visits routerKey before).rewrite? routerKey failed.configMaps).isSome = true ∧
    failed.answers.restart.isOk = false ∧
    ∀ passed v rest, later = passed ++ v :: rest →
      (p.visits routerKey (before ++ failed :: passed)).rewrite? routerKey v.configMaps = none

theorem visits_append (p : Post) (vs ws : List Visit) :
    p.visits routerKey (vs ++ ws) = (p.visits routerKey vs).visits routerKey ws :=
  List.foldl_append

theorem visits_concat (p : Post) (vs : List Visit) (v : Visit) :
    p.visits routerKey (vs ++ [v]) = ((p.visits routerKey vs).visit routerKey v).2 := by
  rw [visits_append]
  rfl

theorem isLeftBehind_nil : ¬ p.IsLeftBehind routerKey [] := by
  rintro ⟨before, failed, later, h, -⟩
  simp at h

theorem concat_eq_append_cons {vs before later : List Visit} {picked : Visit}
    (h : vs ++ [v] = before ++ picked :: later) :
    (before = vs ∧ picked = v ∧ later = []) ∨
      ∃ passed, later = passed ++ [v] ∧ vs = before ++ picked :: passed := by
  rcases List.eq_nil_or_concat later with rfl | ⟨passed, w, rfl⟩
  · obtain ⟨rfl, rfl⟩ := List.append_singleton_inj.mp h
    exact .inl ⟨rfl, rfl, rfl⟩
  · rw [List.concat_eq_append, ← List.cons_append, ← List.append_assoc] at h
    obtain ⟨rfl, rfl⟩ := List.append_singleton_inj.mp h
    exact .inr ⟨passed, List.concat_eq_append, rfl⟩

theorem isLeftBehind_of_rewrite {vs : List Visit}
    (h : ((p.visits routerKey vs).rewrite? routerKey v.configMaps).isSome = true) :
    p.IsLeftBehind routerKey (vs ++ [v]) ↔ v.answers.restart.isOk = false := by
  constructor
  · rintro ⟨before, failed, later, heq, -, hfailed, hlater⟩
    rcases concat_eq_append_cons heq with ⟨-, rfl, -⟩ | ⟨passed, rfl, rfl⟩
    · exact hfailed
    · rw [hlater passed v [] rfl] at h
      cases h
  · intro hfailed
    exact ⟨vs, v, [], rfl, h, hfailed, by simp⟩

theorem isLeftBehind_of_no_rewrite {vs : List Visit}
    (h : (p.visits routerKey vs).rewrite? routerKey v.configMaps = none) :
    p.IsLeftBehind routerKey (vs ++ [v]) ↔ p.IsLeftBehind routerKey vs := by
  constructor
  · rintro ⟨before, failed, later, heq, hrewrote, hfailed, hlater⟩
    rcases concat_eq_append_cons heq with ⟨rfl, rfl, -⟩ | ⟨passed, rfl, rfl⟩
    · rw [h] at hrewrote
      cases hrewrote
    · refine ⟨before, failed, passed, rfl, hrewrote, hfailed, fun earlier u rest hpassed => ?_⟩
      exact hlater earlier u (rest ++ [v]) (by simp [hpassed])
  · rintro ⟨before, failed, later, rfl, hrewrote, hfailed, hlater⟩
    refine ⟨before, failed, later ++ [v], by simp, hrewrote, hfailed, fun passed w rest heq => ?_⟩
    rcases concat_eq_append_cons heq with ⟨rfl, rfl, -⟩ | ⟨more, -, rfl⟩
    · exact h
    · exact hlater passed w more rfl

/-- At every point the interface is behind its file exactly if a failed restart left it there. -/
theorem isCaughtUp_visits_iff (site : Site) (vs : List Visit) :
    IsCaughtUp ((fresh site).visits routerKey vs).deeds ↔
      ¬ (fresh site).IsLeftBehind routerKey vs := by
  induction vs using List.reverseRecOn with
  | nil => exact iff_of_true isCaughtUp_nil isLeftBehind_nil
  | append_singleton vs v ih =>
    rw [visits_concat]
    cases hrewrite : ((fresh site).visits routerKey vs).rewrite? routerKey v.configMaps with
    | none => rw [(visit_of_no_rewrite hrewrite).1, ih, isLeftBehind_of_no_rewrite hrewrite]
    | some rewritten =>
      rw [(visit_of_rewrite hrewrite).1, isCaughtUp_restart_iff,
        isLeftBehind_of_rewrite (Option.isSome_iff_exists.mpr ⟨_, hrewrite⟩), Bool.not_eq_false]

/-- A view that is handled without a failure leaves the interface behind its file exactly if it
found it there and left the file alone. In particular the view that comes again after a restart that
failed is reported as handled, and the interface stays behind. -/
theorem behind_after_success_iff {site : Site} {vs : List Visit}
    (hp : p = (fresh site).visits routerKey vs) (v : Visit) :
    ((p.visit routerKey v).1.isOk = true →
      (¬ IsCaughtUp (p.visit routerKey v).2.deeds ↔
        p.rewrite? routerKey v.configMaps = none ∧ (fresh site).IsLeftBehind routerKey vs)) ∧
    ((p.rewrite? routerKey v.configMaps).isSome = true → v.answers.restart.isOk = false →
      ∀ answers,
        ((p.visit routerKey v).2.visit routerKey { v with answers }).1 = .ok none ∧
        ¬ IsCaughtUp ((p.visit routerKey v).2.visit routerKey { v with answers }).2.deeds) := by
  have hbehind : ¬ IsCaughtUp p.deeds ↔ (fresh site).IsLeftBehind routerKey vs := by
    rw [hp, isCaughtUp_visits_iff, not_not]
  refine ⟨fun hok => ?_, fun hrewrite hfailed answers => ?_⟩
  · cases hrewrite : p.rewrite? routerKey v.configMaps with
    | none => rw [(visit_of_no_rewrite hrewrite).1, hbehind, eq_self, true_and]
    | some rewritten =>
      obtain ⟨hdeeds, -, hfail⟩ := visit_of_rewrite hrewrite
      have hended : v.answers.restart.isOk = true := by
        by_contra hended
        rw [(hfail (Bool.not_eq_true _ ▸ hended)).1] at hok
        cases hok
      rw [hdeeds, isCaughtUp_restart_iff]
      simp [hended]
  · obtain ⟨rewritten, hrewritten⟩ := Option.isSome_iff_exists.mp hrewrite
    obtain ⟨hsame, hdeeds⟩ := visit_again hrewritten answers
    refine ⟨hsame, ?_⟩
    rw [hdeeds, (visit_of_rewrite hrewritten).1, isCaughtUp_restart_iff, hfailed]
    exact Bool.false_ne_true

def bareSite : Site :=
  { Site.fresh with file := some (.text "[Interface]\n") }

def oneRowVisit (restart : Except HostFault Int) : Visit where
  configMaps := [{
    metadata := {
      annotations := some (Dict.empty.insert Names.purposeNote Names.purposeAllocations) }
    data := some (Dict.empty.insert Names.tableKey
      (Table.mk [⟨"K", "R", "n", "10.1.0.1", "10.2.1.0/24"⟩]).text) }]
  answers := ⟨restart, .ok ()⟩

theorem behind_after_success_one_row :
    ((fresh bareSite).rewrite? "R" (oneRowVisit (.error .notFound)).configMaps).isSome = true ∧
      (oneRowVisit (.error .notFound)).answers.restart.isOk = false ∧
      (((fresh bareSite).visit "R" (oneRowVisit (.error .notFound))).2.visit "R"
        (oneRowVisit (.ok 0))).1 = .ok none ∧
      ¬ IsCaughtUp (((fresh bareSite).visit "R" (oneRowVisit (.error .notFound))).2.visit "R"
        (oneRowVisit (.ok 0))).2.deeds := by
  have hrewrite : ((fresh bareSite).rewrite? "R"
      (oneRowVisit (.error .notFound)).configMaps).isSome = true := by decide +kernel
  have hfirst : fresh bareSite = (fresh bareSite).visits "R" [] := rfl
  have hiff := behind_after_success_iff hfirst (oneRowVisit (.error .notFound))
  exact ⟨hrewrite, rfl, hiff.2 hrewrite rfl ⟨.ok 0, .ok ()⟩⟩

/-- What is said to be handled need not have reached the interface. -/
theorem not_isCaughtUp_after_success :
    ¬ ∀ (site : Site) (routerKey : String) (vs : List Visit) (v : Visit),
      (((fresh site).visits routerKey vs).visit routerKey v).1.isOk = true →
        IsCaughtUp (((fresh site).visits routerKey vs).visit routerKey v).2.deeds := by
  intro hclaim
  have hok : (((fresh bareSite).visits "R" [oneRowVisit (.error .notFound)]).visit "R"
      (oneRowVisit (.ok 0))).1.isOk = true := by decide +kernel
  have hdeeds : (((fresh bareSite).visits "R" [oneRowVisit (.error .notFound)]).visit "R"
      (oneRowVisit (.ok 0))).2.deeds = [.restarted false, .rewrote] := by decide +kernel
  have hcaught := hclaim bareSite "R" [oneRowVisit (.error .notFound)] (oneRowVisit (.ok 0)) hok
  rw [hdeeds, isCaughtUp_restart_iff] at hcaught
  cases hcaught

end Post

end Installer

end TunnelFleet
