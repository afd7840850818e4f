import TunnelFleet.Text.Basic

namespace TunnelFleet.Text

def IsUnix (s : String) : Prop :=
  ¬ ['\r', '\n'] <:+: s.toList

def unix (s : String) : String :=
  String.ofList (unixLines s.toList)

theorem unixLines_cons {c : Char} {cs : List Char} (h : c = '\r' → cs.head? ≠ some '\n') :
    unixLines (c :: cs) = c :: unixLines cs := by
  rw [unixLines]
  rintro rest hc rfl
  exact h hc rfl

theorem head?_ne_of_not_broken {c : Char} {cs : List Char}
    (h : ∀ rest, c = '\r' → cs = '\n' :: rest → False) (hc : c = '\r') :
    cs.head? ≠ some '\n' := by
  intro hcs
  obtain ⟨rest, rfl⟩ := List.head?_eq_some_iff.mp hcs
  exact h rest hc rfl

theorem unixLines_append {as cs : List Char} (h : as.getLast? = some '\r' → cs.head? ≠ some '\n') :
    unixLines (as ++ cs) = unixLines as ++ unixLines cs := by
  induction as using unixLines.induct with
  | case1 rest ih =>
    have hrest : rest.getLast? = some '\r' → cs.head? ≠ some '\n' := by
      intro hr
      exact h (by simp [List.getLast?_cons, hr])
    simp only [List.cons_append, unixLines, ih hrest]
  | case2 a rest hno ih =>
    have ha := head?_ne_of_not_broken hno
    rw [List.cons_append, unixLines_cons ha]
    cases rest with
    | nil => exact unixLines_cons fun har => h (by simp [har])
    | cons b bs =>
      have hrest : (b :: bs).getLast? = some '\r' → cs.head? ≠ some '\n' := by
        intro hr
        exact h (by rw [List.getLast?_cons_cons]; exact hr)
      rw [unixLines_cons (by simpa using ha), ih hrest, List.cons_append]
  | case3 => rfl

theorem unixLines_eq_self {cs : List Char} (h : ¬ ['\r', '\n'] <:+: cs) : unixLines cs = cs := by
  induction cs using unixLines.induct with
  | case1 rest _ => exact absurd ⟨[], rest, rfl⟩ h
  | case2 c rest hno ih =>
    have hrest : ¬ ['\r', '\n'] <:+: rest :=
      fun hr => h (hr.trans (List.suffix_cons c rest).isInfix)
    rw [unixLines_cons (head?_ne_of_not_broken hno), ih hrest]
  | case3 => rfl

theorem not_infix_of_unixLines_eq_self {cs : List Char} (h : unixLines cs = cs) :
    ¬ ['\r', '\n'] <:+: cs := by
  induction cs using unixLines.induct with
  | case1 rest _ =>
    have hhead := (List.cons.inj h).1
    exact absurd hhead (by decide)
  | case2 c rest hno ih =>
    rw [unixLines_cons (head?_ne_of_not_broken hno)] at h
    intro hinfix
    rcases List.infix_cons_iff.mp hinfix with hprefix | hrest
    · obtain ⟨hc, others, hothers⟩ := List.cons_prefix_cons.mp hprefix
      exact hno others hc.symm hothers.symm
    · exact ih (List.cons.inj h).2 hrest
  | case3 => simp

theorem intercalate_cons_head (separator : List Char) (c : Char) (piece : List Char)
    (pieces : List (List Char)) : separator.intercalate ((c :: piece) :: pieces) =
      c :: separator.intercalate (piece :: pieces) := by
  cases pieces with
  | nil => simp
  | cons second pieces => simp [List.intercalate_cons_cons]

/-- What stands between line ends of two characters stays as it is, and each such end becomes one
line feed. -/
theorem exists_intercalate_unixLines (cs : List Char) : ∃ pieces : List (List Char),
    (∀ piece ∈ pieces, ¬ ['\r', '\n'] <:+: piece) ∧ cs = ['\r', '\n'].intercalate pieces ∧
      unixLines cs = ['\n'].intercalate pieces := by
  suffices h : ∃ first rest, (∀ piece ∈ first :: rest, ¬ ['\r', '\n'] <:+: piece) ∧
      cs = ['\r', '\n'].intercalate (first :: rest) ∧
        unixLines cs = ['\n'].intercalate (first :: rest) by
    obtain ⟨first, rest, h⟩ := h
    exact ⟨first :: rest, h⟩
  induction cs using unixLines.induct with
  | case1 rest ih =>
    obtain ⟨first, others, hpieces, hrest, hlines⟩ := ih
    refine ⟨[], first :: others, List.forall_mem_cons.mpr ⟨by simp, hpieces⟩, ?_, ?_⟩
    · rw [List.intercalate_cons_cons, ← hrest]
      rfl
    · rw [List.intercalate_cons_cons, ← hlines, unixLines]
      rfl
  | case2 c rest hno ih =>
    obtain ⟨first, others, hpieces, hrest, hlines⟩ := ih
    obtain ⟨hfirst, hothers⟩ := List.forall_mem_cons.mp hpieces
    refine ⟨c :: first, others, List.forall_mem_cons.mpr ⟨fun hinfix => ?_, hothers⟩, ?_, ?_⟩
    · rcases List.infix_cons_iff.mp hinfix with hprefix | hinfix
      · obtain ⟨hc, after, rfl⟩ := List.cons_prefix_cons.mp hprefix
        rw [List.singleton_append, intercalate_cons_head] at hrest
        exact hno _ hc.symm hrest
      · exact hfirst hinfix
    · rw [intercalate_cons_head, ← hrest]
    · rw [intercalate_cons_head, ← hlines, unixLines_cons (head?_ne_of_not_broken hno)]
  | case3 => exact ⟨[], [], by simp, rfl, rfl⟩

theorem isUnix_of_not_mem {s : String} (h : '\r' ∉ s.toList) : IsUnix s :=
  fun hs => h (hs.subset (by simp))

theorem unix_eq_self {s : String} (h : IsUnix s) : unix s = s := by
  rw [unix, unixLines_eq_self h, String.ofList_toList]

theorem isUnix_unix {s : String} (h : IsUnix s) : IsUnix (unix s) := by
  rwa [unix_eq_self h]

theorem unix_eq_self_iff {s : String} : unix s = s ↔ IsUnix s := by
  refine ⟨fun h => ?_, unix_eq_self⟩
  have hchars := congrArg String.toList h
  rw [unix, String.toList_ofList] at hchars
  exact not_infix_of_unixLines_eq_self hchars

end TunnelFleet.Text
