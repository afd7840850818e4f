import TunnelFleet.Csv
import TunnelFleet.Proofs.Text.UnixLines

namespace TunnelFleet.Csv

open Text

theorem head?_doubled {cs : List Char} (h : cs.head? ≠ some '\n') :
    (doubled cs).head? ≠ some '\n' := by
  cases cs with
  | nil => exact h
  | cons c rest =>
    by_cases hc : c = '"'
    · simp [doubled, hc]
    · simpa [doubled, hc] using h

theorem unixLines_doubled (cs : List Char) :
    unixLines (doubled cs) = doubled (unixLines cs) := by
  induction cs using unixLines.induct with
  | case1 rest ih =>
    have hr : '\r' ≠ '"' := by decide
    have hn : '\n' ≠ '"' := by decide
    simp only [doubled, unixLines, if_neg hr, if_neg hn, ih]
  | case2 c rest hno ih =>
    have hc := head?_ne_of_not_broken hno
    rw [unixLines_cons hc, doubled, doubled]
    split
    next hq =>
      have hr : '"' ≠ '\r' := by decide
      rw [unixLines_cons (fun h => absurd h hr), unixLines_cons (fun h => absurd h hr), ih]
    next => rw [unixLines_cons fun h => head?_doubled (hc h), ih]
  | case3 => rfl

theorem any_isSpecial_unixLines (cs : List Char) :
    (unixLines cs).any isSpecial = cs.any isSpecial := by
  induction cs using unixLines.induct with
  | case1 rest ih => simp [unixLines, isSpecial]
  | case2 c rest hno ih =>
    rw [unixLines_cons (head?_ne_of_not_broken hno), List.any_cons, List.any_cons, ih]
  | case3 => rfl

theorem unixLines_fieldChars (s : String) : unixLines (fieldChars s) = fieldChars (unix s) := by
  have hspecial := any_isSpecial_unixLines s.toList
  by_cases h : s.toList.any isSpecial = true
  · rw [h] at hspecial
    simp only [fieldChars, unix, String.toList_ofList, h, hspecial, if_true]
    rw [List.cons_append, unixLines_cons (fun h => absurd h (by decide)),
      unixLines_append (by simp), unixLines_doubled, List.cons_append]
    rfl
  · have hr : '\r' ∉ s.toList := by
      intro hmem
      exact h (List.any_eq_true.mpr ⟨'\r', hmem, by decide⟩)
    have hunix := isUnix_of_not_mem hr
    rw [unix_eq_self hunix, fieldChars, if_neg h, unixLines_eq_self hunix]

theorem getLast?_fieldChars (s : String) : (fieldChars s).getLast? ≠ some '\r' := by
  by_cases h : s.toList.any isSpecial = true
  · simp [fieldChars, h, List.getLast?_cons]
  · intro hlast
    rw [fieldChars, if_neg h] at hlast
    exact h (List.any_eq_true.mpr ⟨'\r', List.mem_of_getLast? hlast, by decide⟩)

theorem getLast?_intercalate_fieldChars (fields : List String) :
    ([','].intercalate (fields.map fieldChars)).getLast? ≠ some '\r' := by
  induction fields with
  | nil => simp
  | cons s rest ih =>
    cases rest with
    | nil => simpa using getLast?_fieldChars s
    | cons t rest =>
      intro hlast
      rw [List.map_cons, List.map_cons, List.intercalate_cons_cons, List.getLast?_append,
        Option.or_eq_some_iff] at hlast
      rcases hlast with hlast | ⟨_, hcomma⟩
      · exact ih hlast
      · simp at hcomma

theorem unixLines_intercalate_fieldChars (fields : List String) :
    unixLines ([','].intercalate (fields.map fieldChars)) =
      [','].intercalate ((fields.map unix).map fieldChars) := by
  induction fields with
  | nil => rfl
  | cons s rest ih =>
    cases rest with
    | nil => simpa using unixLines_fieldChars s
    | cons t rest =>
      simp only [List.map_cons, List.intercalate_cons_cons] at ih ⊢
      rw [unixLines_append (by simp), unixLines_append (by simp), unixLines_fieldChars, ih]
      rfl

theorem unixLines_recordChars (fields : List String) :
    unixLines (recordChars fields) = recordChars (fields.map unix) := by
  rw [recordChars, unixLines_append (fun h => absurd h (getLast?_intercalate_fieldChars fields)),
    unixLines_intercalate_fieldChars, recordChars]
  rfl

theorem unixLines_records (records : List (List String)) :
    unixLines (records.map recordChars).flatten =
      ((records.map (List.map unix)).map recordChars).flatten := by
  induction records with
  | nil => rfl
  | cons fields rest ih =>
    simp only [List.map_cons, List.flatten_cons]
    rw [unixLines_append (by simp [recordChars]), unixLines_recordChars, ih]

end TunnelFleet.Csv
