import Mathlib.Data.List.Basic
import TunnelFleet.Text.Basic

namespace TunnelFleet.Text

theorem splitAt_of_not_mem {separator : Char} {cs : List Char} (h : separator ∉ cs) :
    splitAt separator cs = [cs] := by
  induction cs with
  | nil => rfl
  | cons c cs ih =>
    have hc : c ≠ separator := fun heq => h (by simp [heq])
    rw [splitAt, if_neg hc, ih (fun hm => h (List.mem_cons_of_mem _ hm))]

theorem splitAt_ne_nil (separator : Char) (cs : List Char) : splitAt separator cs ≠ [] := by
  cases cs with
  | nil => exact List.cons_ne_nil _ _
  | cons c cs =>
    rw [splitAt]
    split
    · exact List.cons_ne_nil _ _
    · split <;> exact List.cons_ne_nil _ _

theorem splitAt_append_separator (separator : Char) (as cs : List Char) :
    splitAt separator (as ++ separator :: cs) = splitAt separator as ++ splitAt separator cs := by
  induction as with
  | nil => simp [splitAt]
  | cons a as ih =>
    rw [List.cons_append, splitAt, splitAt, ih]
    split
    · rfl
    · cases has : splitAt separator as with
      | nil => exact absurd has (splitAt_ne_nil separator as)
      | cons piece pieces => rfl

theorem splitAt_append_cons {separator : Char} {piece : List Char} (rest : List Char)
    (h : separator ∉ piece) :
    splitAt separator (piece ++ separator :: rest) = piece :: splitAt separator rest := by
  rw [splitAt_append_separator, splitAt_of_not_mem h, List.singleton_append]

theorem splitAt_append_of_not_mem {separator : Char} {front : List Char} (cs : List Char)
    (h : separator ∉ front) : ∃ first rest, splitAt separator cs = first :: rest ∧
      splitAt separator (front ++ cs) = (front ++ first) :: rest := by
  obtain ⟨first, rest, hcs⟩ := List.exists_cons_of_ne_nil (splitAt_ne_nil separator cs)
  refine ⟨first, rest, hcs, ?_⟩
  induction front with
  | nil => exact hcs
  | cons c front ih =>
    obtain ⟨hc, hfront⟩ := List.ne_and_not_mem_of_not_mem_cons h
    rw [List.cons_append, splitAt, if_neg (Ne.symm hc), ih hfront]
    rfl

theorem mem_of_mem_splitAt (separator : Char) {c : Char} {cs : List Char} (h : c ∈ cs) :
    c = separator ∨ ∃ piece ∈ splitAt separator cs, c ∈ piece := by
  induction cs with
  | nil => cases h
  | cons d ds ih =>
    rw [splitAt]
    split
    next hd =>
      rcases List.mem_cons.mp h with rfl | h
      · exact .inl hd
      · refine (ih h).imp id ?_
        rintro ⟨piece, hpiece, hc⟩
        exact ⟨piece, List.mem_cons_of_mem _ hpiece, hc⟩
    next hd =>
      split
      next hnil =>
        rcases List.mem_cons.mp h with rfl | h
        · exact .inr ⟨[c], by simp, by simp⟩
        · rcases ih h with hc | ⟨piece, hpiece, -⟩
          · exact .inl hc
          · simp [hnil] at hpiece
      next first pieces hcons =>
        rcases List.mem_cons.mp h with rfl | h
        · exact .inr ⟨c :: first, by simp, by simp⟩
        · rcases ih h with hc | ⟨piece, hpiece, hc⟩
          · exact .inl hc
          · rw [hcons] at hpiece
            rcases List.mem_cons.mp hpiece with rfl | hpiece
            · exact .inr ⟨d :: piece, by simp, List.mem_cons_of_mem _ hc⟩
            · exact .inr ⟨piece, List.mem_cons_of_mem _ hpiece, hc⟩

theorem splitAt_eq_splitOn (separator : Char) (cs : List Char) :
    splitAt separator cs = cs.splitOn separator := by
  induction cs with
  | nil => rfl
  | cons c cs ih =>
    obtain ⟨first, rest, hcs⟩ := List.exists_cons_of_ne_nil (splitAt_ne_nil separator cs)
    rw [hcs, List.splitOn_eq_splitOnP] at ih
    rw [splitAt, hcs, List.splitOn_eq_splitOnP, List.splitOnP_cons_eq_if_modifyHead, ← ih]
    by_cases hc : c = separator
    · simp [hc]
    · simp [hc]

theorem intercalate_splitAt (separator : Char) (cs : List Char) :
    [separator].intercalate (splitAt separator cs) = cs := by
  rw [splitAt_eq_splitOn, List.intercalate_splitOn]

theorem exists_append_of_splitAt {separator : Char} {cs first : List Char}
    {rest : List (List Char)} (h : splitAt separator cs = first :: rest) :
    ∃ tail, cs = first ++ tail ∧ (tail = [] ∨ [separator] <+: tail) := by
  have hcs := intercalate_splitAt separator cs
  rw [h] at hcs
  cases rest with
  | nil => exact ⟨[], by simpa using hcs.symm, .inl rfl⟩
  | cons second rest =>
    rw [List.intercalate_cons_cons] at hcs
    exact ⟨_, hcs.symm.trans (List.append_assoc ..), .inr ⟨_, rfl⟩⟩

end TunnelFleet.Text
