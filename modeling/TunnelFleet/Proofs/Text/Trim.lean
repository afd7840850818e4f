import Mathlib.Data.List.TakeWhile
import TunnelFleet.Text.Basic

namespace TunnelFleet.Text

variable {c : Char} {cs : List Char}

theorem trimLeft_cons (h : isBlank c = false) : trimLeft (c :: cs) = c :: cs := by
  rw [trimLeft, List.dropWhile_cons_of_neg (by simp [h])]

theorem trimRight_concat (h : isBlank c = false) : trimRight (cs ++ [c]) = cs ++ [c] := by
  rw [trimRight, List.reverse_append, List.reverse_singleton, List.singleton_append,
    List.dropWhile_cons_of_neg (by simp [h]), List.reverse_cons, List.reverse_reverse]

theorem trimRight_concat_blank (h : isBlank c = true) : trimRight (cs ++ [c]) = trimRight cs := by
  rw [trimRight, List.reverse_append, List.reverse_singleton, List.singleton_append,
    List.dropWhile_cons_of_pos h, trimRight]

/-- No white space at the beginning and none at the end. -/
structure IsTrimmed (cs : List Char) : Prop where
  head : ∀ c ∈ cs.head?, isBlank c = false
  last : ∀ c ∈ cs.getLast?, isBlank c = false

instance (cs : List Char) : Decidable (IsTrimmed cs) :=
  decidable_of_iff
    (cs.head?.all (fun c => isBlank c = false) = true ∧
      cs.getLast?.all (fun c => isBlank c = false) = true) <| by
    simp only [Option.all_eq_true, decide_eq_true_eq]
    exact ⟨fun ⟨hhead, hlast⟩ => ⟨hhead, hlast⟩, fun h => ⟨h.head, h.last⟩⟩

theorem IsTrimmed.trimRight_eq (h : IsTrimmed cs) : trimRight cs = cs := by
  rcases List.eq_nil_or_concat cs with rfl | ⟨front, last, rfl⟩
  · rfl
  · rw [List.concat_eq_append] at h ⊢
    exact trimRight_concat (h.last last (by simp))

theorem IsTrimmed.trimLeft_eq (h : IsTrimmed cs) : trimLeft cs = cs := by
  cases cs with
  | nil => rfl
  | cons c cs => exact trimLeft_cons (h.head c rfl)

theorem IsTrimmed.trim_eq (h : IsTrimmed cs) : trim cs = cs := by
  rw [trim, h.trimLeft_eq, h.trimRight_eq]

theorem isBlank_of_head?_dropWhile (h : c ∈ (cs.dropWhile isBlank).head?) : isBlank c = false := by
  have hnot := List.head?_dropWhile_not isBlank cs
  rwa [h] at hnot

theorem takeWhile_append_trimLeft (cs : List Char) : cs.takeWhile isBlank ++ trimLeft cs = cs :=
  List.takeWhile_append_dropWhile

theorem trimRight_append_takeWhile (cs : List Char) :
    trimRight cs ++ (cs.reverse.takeWhile isBlank).reverse = cs := by
  rw [trimRight, ← List.reverse_append, List.takeWhile_append_dropWhile, List.reverse_reverse]

theorem isTrimmed_trim (cs : List Char) : IsTrimmed (trim cs) where
  head := by
    intro c hc
    obtain ⟨rest, hrest⟩ := List.head?_eq_some_iff.mp hc
    have hleft := trimRight_append_takeWhile (trimLeft cs)
    rw [← trim, hrest, List.cons_append] at hleft
    exact isBlank_of_head?_dropWhile (List.head?_eq_some_iff.mpr ⟨_, hleft.symm⟩)
  last := by
    intro c hc
    rw [trim, trimRight, List.getLast?_reverse] at hc
    exact isBlank_of_head?_dropWhile hc

/-- Only white space is taken away, from both ends. -/
theorem exists_append_trim (cs : List Char) : ∃ front back, cs = front ++ trim cs ++ back ∧
    (∀ c ∈ front, isBlank c = true) ∧ ∀ c ∈ back, isBlank c = true := by
  refine ⟨cs.takeWhile isBlank, ((trimLeft cs).reverse.takeWhile isBlank).reverse, ?_,
    fun c hc => List.mem_takeWhile_imp hc,
    fun c hc => List.mem_takeWhile_imp (List.mem_reverse.mp hc)⟩
  rw [List.append_assoc, trim, trimRight_append_takeWhile, takeWhile_append_trimLeft]

theorem trim_append {front back : List Char} (h : IsTrimmed cs)
    (hfront : ∀ c ∈ front, isBlank c = true) (hback : ∀ c ∈ back, isBlank c = true) :
    trim (front ++ cs ++ back) = cs := by
  rw [trim, trimLeft, List.append_assoc, List.dropWhile_append_of_pos hfront]
  cases cs with
  | nil =>
    rw [List.nil_append, List.dropWhile_eq_nil_iff.mpr hback]
    rfl
  | cons c rest =>
    have hkept : (c :: rest ++ back).dropWhile isBlank = c :: rest ++ back :=
      trimLeft_cons (h.head c rfl)
    rw [hkept, trimRight, List.reverse_append,
      List.dropWhile_append_of_pos fun c hc => hback c (List.mem_reverse.mp hc), ← trimRight,
      h.trimRight_eq]

end TunnelFleet.Text
