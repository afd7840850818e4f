import Mathlib.Algebra.GroupWithZero.Nat
import Mathlib.Data.List.Induction
import TunnelFleet.Proofs.Allocation.Fill

namespace TunnelFleet

namespace Allocation

variable {texts before : List String} {pool : String} {len k : Nat} {b : Block} {a : Address}

theorem holds_text : Holds b.text a ↔ b.contains a = true := by
  rw [Holds, Block.ofText_text]
  simp

theorem holds_address_text (h : b ∈ candidates pool 32) :
    Holds b.address.text a ↔ b.contains a = true := by
  rw [Holds, Block.ofText_address_text (len_of_mem_candidates h)]
  simp

theorem isTaken_of_mem (text : Block → String) (htext : ∀ a, Holds (text b) a ↔ b.contains a = true)
    (h : text b ∈ texts) : IsTaken texts b :=
  ⟨_, h, b.address, (htext _).mpr b.contains_address, b.contains_address⟩

theorem find?_candidates (text : Block → String)
    (htext : ∀ b ∈ candidates pool len, ∀ a, Holds (text b) a ↔ b.contains a = true)
    (hbefore : ∀ s ∈ before, ∀ a, Holds s a → ¬ Holds pool a)
    (hk : k < (candidates pool len).length) :
    (candidates pool len).find? (isFree (blocks (before ++ ((candidates pool len).take k).map text))) =
      some (candidates pool len)[k] := by
  refine find?_isFree_eq_some hk (fun b hb => ?_) ?_
  · exact isTaken_of_mem text (htext b (List.mem_of_mem_take hb))
      (List.mem_append_right _ (List.mem_map_of_mem hb))
  · rintro ⟨s, hs, a, hholds, ha⟩
    rcases List.mem_append.mp hs with hs | hs
    · exact hbefore s hs a hholds (holds_of_mem_candidates (List.getElem_mem hk) ha)
    · obtain ⟨b, hb, rfl⟩ := List.mem_map.mp hs
      obtain ⟨j, hj, rfl⟩ := List.mem_take_iff_getElem.mp hb
      have hjk : j < k := Nat.lt_of_lt_of_le hj (Nat.min_le_left _ _)
      exact List.pairwise_iff_getElem.mp (pairwise_candidates pool len) j k _ hk hjk a
        ⟨(htext _ (List.getElem_mem _) a).mp hholds, ha⟩

end Allocation

namespace Router

open Allocation

variable {r : Router} {table : Table} {node pod : Block} {a : Address} {k : Nat}

theorem isReadable_row (node pod : Block) : (r.row node pod).IsReadable :=
  ⟨⟨_, Block.ofText_text_address _⟩, ⟨_, Block.ofText_text _⟩⟩

theorem length_rows (r : Router) : r.rows.length = min r.nodes.length r.pods.length :=
  List.length_zipWith

theorem exists_of_mem_rows {row : Allocation} (h : row ∈ r.rows) :
    ∃ node ∈ r.nodes, ∃ pod ∈ r.pods, row = r.row node pod := by
  rw [rows] at h
  obtain ⟨i, hi, rfl⟩ := List.mem_iff_getElem.mp h
  rw [List.getElem_zipWith]
  exact ⟨_, List.getElem_mem _, _, List.getElem_mem _, rfl⟩

theorem row_mem_rows (hnode : k < r.nodes.length) (hpod : k < r.pods.length) :
    r.row r.nodes[k] r.pods[k] ∈ r.rows :=
  List.mem_iff_getElem.mpr
    ⟨k, by rw [length_rows]; exact Nat.lt_min.mpr ⟨hnode, hpod⟩, List.getElem_zipWith⟩

theorem map_nodeIP_take_rows (h : k ≤ r.rows.length) :
    (r.rows.take k).map (·.nodeIP) = (r.nodes.take k).map (·.address.text) := by
  rw [length_rows] at h
  refine List.ext_getElem (by simp [length_rows]; omega) fun i _ _ => ?_
  simp [rows, row]

theorem map_podNet_take_rows (h : k ≤ r.rows.length) :
    (r.rows.take k).map (·.podNet) = (r.pods.take k).map Block.text := by
  rw [length_rows] at h
  refine List.ext_getElem (by simp [length_rows]; omega) fun i _ _ => ?_
  simp [rows, row]

theorem pick?_eq_none_of_rows (h : r.rows ⊆ table.rows) : r.pick? table = none := by
  rw [pick?_eq_none_iff]
  rcases Nat.le_total r.nodes.length r.pods.length with hle | hle
  · refine .inl fun b hb => ?_
    obtain ⟨i, hi, rfl⟩ := List.mem_iff_getElem.mp hb
    have hmem := h (row_mem_rows hi (Nat.lt_of_lt_of_le hi hle))
    exact isTaken_of_mem (·.address.text) (fun _ => holds_address_text hb) (List.mem_map_of_mem hmem)
  · refine .inr fun b hb => ?_
    obtain ⟨i, hi, rfl⟩ := List.mem_iff_getElem.mp hb
    have hmem := h (row_mem_rows (Nat.lt_of_lt_of_le hi hle) hi)
    exact isTaken_of_mem Block.text (fun _ => holds_text) (List.mem_map_of_mem hmem)

theorem pick?_eq_getElem_rows (front : List Router) {before : List Allocation}
    (hk : k < r.rows.length) (hapart : ∀ s ∈ front, s.IsApart r)
    (hbefore : ∀ row ∈ before, ∃ s ∈ front, row ∈ s.rows)
    (htable : table.rows = before ++ r.rows.take k) : r.pick? table = some r.rows[k] := by
  have hlength := hk
  rw [length_rows, Nat.lt_min] at hlength
  obtain ⟨hnodes, hpods⟩ := hlength
  have hnode : r.nodes.find? (isFree (blocks table.nodeIPs)) = some r.nodes[k] := by
    rw [Table.nodeIPs, htable, List.map_append, map_nodeIP_take_rows (Nat.le_of_lt hk)]
    refine find?_candidates (·.address.text) (fun b hb _ => holds_address_text hb)
      (fun s hs a hholds hpool => ?_) hnodes
    obtain ⟨row, hrow, rfl⟩ := List.mem_map.mp hs
    obtain ⟨other, hother, hmem⟩ := hbefore row hrow
    obtain ⟨node, hnode, pod, -, rfl⟩ := exists_of_mem_rows hmem
    exact (hapart other hother).node a
      ⟨holds_of_mem_candidates hnode ((holds_address_text hnode).mp hholds), hpool⟩
  have hpod : r.pods.find? (isFree (blocks table.podNets)) = some r.pods[k] := by
    rw [Table.podNets, htable, List.map_append, map_podNet_take_rows (Nat.le_of_lt hk)]
    refine find?_candidates Block.text (fun b _ _ => holds_text) (fun s hs a hholds hpool => ?_) hpods
    obtain ⟨row, hrow, rfl⟩ := List.mem_map.mp hs
    obtain ⟨other, hother, hmem⟩ := hbefore row hrow
    obtain ⟨node, -, pod, hpod, rfl⟩ := exists_of_mem_rows hmem
    exact (hapart other hother).pod a
      ⟨holds_of_mem_candidates hpod (holds_text.mp hholds), hpool⟩
  rw [pick?, hnode, hpod]
  simp [rows]

end Router

namespace Allocation

def plan (routers : List Router) : List (Nat × Allocation) :=
  routers.zipIdx.flatMap fun (r, position) => r.rows.map (position, ·)

def planned (routers : List Router) (count : Nat) : Table :=
  ⟨((plan routers).take count).map Prod.snd⟩

variable {routers : List Router} {table after : Table} {steps : List (Nat × Allocation)} {n : Nat}

theorem plan_concat (front : List Router) (r : Router) :
    plan (front ++ [r]) = plan front ++ r.rows.map (front.length, ·) := by
  simp [plan, List.zipIdx_append]

theorem length_plan (routers : List Router) :
    (plan routers).length = (routers.map fun r => min r.nodes.length r.pods.length).sum := by
  induction routers using List.reverseRecOn with
  | nil => rfl
  | append_singleton front r ih =>
    rw [plan_concat, List.length_append, ih, List.length_map, Router.length_rows, List.map_append,
      List.sum_append, List.map_singleton, List.sum_singleton]

theorem mem_plan {step : Nat × Allocation} :
    step ∈ plan routers → ∃ r ∈ routers, step.2 ∈ r.rows := by
  intro h
  obtain ⟨⟨r, position⟩, hr, hstep⟩ := List.mem_flatMap.mp h
  obtain ⟨row, hrow, rfl⟩ := List.mem_map.mp hstep
  exact ⟨r, List.fst_mem_of_mem_zipIdx hr, hrow⟩

theorem rows_subset_plan {r : Router} (h : r ∈ routers) : r.rows ⊆ (plan routers).map Prod.snd := by
  intro row hrow
  obtain ⟨position, hlt, rfl⟩ := List.mem_iff_getElem.mp h
  have hposition : (routers[position], position) ∈ routers.zipIdx :=
    List.mem_zipIdx_iff_getElem?.mpr (List.getElem?_eq_getElem hlt)
  have hstep : (position, row) ∈ plan routers :=
    List.mem_flatMap.mpr ⟨_, hposition, List.mem_map_of_mem hrow⟩
  exact List.mem_map_of_mem hstep

theorem exists_split_of_lt (h : n < (plan routers).length) :
    ∃ (front : List Router) (r : Router) (back : List Router) (k : Nat) (hk : k < r.rows.length),
      routers = front ++ r :: back ∧
      (plan routers).take n = plan front ++ (r.rows.take k).map (front.length, ·) ∧
      (plan routers)[n] = (front.length, r.rows[k]) := by
  induction routers using List.reverseRecOn with
  | nil => cases h
  | append_singleton front r ih =>
    simp only [plan_concat] at h ⊢
    rcases Nat.lt_or_ge n (plan front).length with hlt | hle
    · obtain ⟨first, s, back, k, hk, rfl, htake, hget⟩ := ih hlt
      refine ⟨first, s, back ++ [r], k, hk, by simp, ?_, ?_⟩
      · rw [List.take_append_of_le_length (Nat.le_of_lt hlt), htake]
      · rw [List.getElem_append_left hlt, hget]
    · rw [List.length_append, List.length_map] at h
      refine ⟨front, r, [], n - (plan front).length, by omega, rfl, ?_, ?_⟩
      · rw [List.take_append, List.take_of_length_le hle, List.map_take]
      · rw [List.getElem_append_right hle, List.getElem_map]

theorem isReadable_planned (routers : List Router) (count : Nat) :
    ∀ row ∈ (planned routers count).rows, row.IsReadable := by
  intro row hrow
  obtain ⟨step, hstep, rfl⟩ := List.mem_map.mp hrow
  obtain ⟨r, -, hmem⟩ := mem_plan (List.mem_of_mem_take hstep)
  obtain ⟨node, -, pod, -, heq⟩ := Router.exists_of_mem_rows hmem
  rw [heq]
  exact Router.isReadable_row node pod

theorem planned_succ (h : n < (plan routers).length) :
    planned routers (n + 1) = (planned routers n).push (plan routers)[n].2 := by
  rw [planned, ← List.take_append_getElem h, List.map_append]
  rfl

section Pools

variable (hpools : ∀ r ∈ routers, r.HasPools)

include hpools

theorem next_planned_eq_exhausted :
    next routers (planned routers (plan routers).length) = .error .exhausted := by
  refine (next_eq_exhausted_iff hpools (isReadable_planned routers _)).mpr fun r hr => ?_
  refine Router.pick?_eq_none_of_rows ?_
  rw [planned, List.take_length]
  exact rows_subset_plan hr

variable (hapart : routers.Pairwise Router.IsApart)

include hapart

theorem isPick_planned (h : n < (plan routers).length) :
    IsPick routers (planned routers n) (plan routers)[n].1 (plan routers)[n].2 := by
  obtain ⟨front, r, back, k, hk, hsplit, htake, hget⟩ := exists_split_of_lt h
  have hrows : (planned routers n).rows = (plan front).map Prod.snd ++ r.rows.take k := by
    rw [planned, htake, List.map_append, List.map_map]
    simp [Function.comp_def]
  rw [hget]
  refine (isPick_iff hpools (isReadable_planned routers n)).mpr
    ⟨front, r, back, hsplit, rfl, fun s hs => ?_, ?_⟩
  · refine Router.pick?_eq_none_of_rows ?_
    rw [hrows]
    exact List.Subset.trans (rows_subset_plan hs) (List.subset_append_left _ _)
  · refine Router.pick?_eq_getElem_rows front hk (fun s hs => ?_) (fun row hrow => ?_) hrows
    · rw [hsplit] at hapart
      exact (List.pairwise_append.mp hapart).2.2 s hs r List.mem_cons_self
    · obtain ⟨step, hstep, rfl⟩ := List.mem_map.mp hrow
      exact mem_plan hstep

theorem Fills.follows_plan (h : Fills routers table steps after) (hn : n ≤ (plan routers).length)
    (htable : table.addresses = (planned routers n).addresses) :
    n + steps.length ≤ (plan routers).length ∧
      steps = ((plan routers).drop n).take steps.length ∧
      after.addresses = (planned routers (n + steps.length)).addresses := by
  -- the table holds the first steps of the plan and nothing else, and the next one is all that can be
  -- chosen over it
  induction h generalizing n with
  | nil => exact ⟨hn, rfl, htable⟩
  | @cons table after position found steps nodeKey nodeName hpick hrest ih =>
    have hpick' := hpick.congr htable
    have hlt : n < (plan routers).length := by
      refine Nat.lt_of_le_of_ne hn fun heq => ?_
      have hfound := (next_eq_ok_iff_isPick hpools (isReadable_planned routers n)).mpr ⟨_, hpick'⟩
      rw [heq, next_planned_eq_exhausted hpools] at hfound
      cases hfound
    obtain ⟨rfl, rfl⟩ := hpick'.unique hpools (isPick_planned hpools hapart hlt)
      (isReadable_planned routers n)
    have hpush : (table.push { (plan routers)[n].2 with nodeKey, nodeName }).addresses =
        (planned routers (n + 1)).addresses := by
      rw [planned_succ hlt, Table.addresses_push, Table.addresses_push, htable]
    obtain ⟨hle, hsteps, hafter⟩ := ih hlt hpush
    rw [List.length_cons, Nat.add_comm steps.length, ← Nat.add_assoc]
    refine ⟨hle, ?_, hafter⟩
    rw [List.drop_eq_getElem_cons hlt, Nat.add_comm, List.take_succ_cons, ← hsteps]

end Pools

/-- Searching and putting in again and again comes to an end, from any table that can be read. The
position of the chosen router never steps back, and once all is exhausted no more rows change that. From
the empty table, and with pools that are apart, the routers are emptied in their order, pair by pair. -/
theorem runs_empty_routers_in_order (hpools : ∀ r ∈ routers, r.HasPools)
    (hrows : ∀ row ∈ table.rows, row.IsReadable) :
    (∀ steps after, Fills routers table steps after → (steps.map Prod.fst).Pairwise (· ≤ ·)) ∧
      (∀ steps after, Fills routers table steps after → next routers after = .error .exhausted →
        ∀ more, (∀ row ∈ more, row.IsReadable) →
          next routers ⟨after.rows ++ more⟩ = .error .exhausted) ∧
      ∃ total, EndsAfter routers table total ∧
        (table = ⟨[]⟩ → routers.Pairwise Router.IsApart →
          total = (routers.map fun r => min r.nodes.length r.pods.length).sum ∧
            ∀ steps after, Fills routers table steps after →
              steps = (plan routers).take steps.length) := by
  refine ⟨fun steps after hrun => hrun.pairwise_positions hpools hrows, ?_, ?_⟩
  · intro steps after hrun hexhausted more hmore
    have hall : ∀ row ∈ after.rows ++ more, row.IsReadable :=
      List.forall_mem_append.mpr ⟨hrun.isReadable hrows, hmore⟩
    exact next_eq_exhausted_of_subset hpools hall (List.subset_append_left _ _) hexhausted
  · obtain ⟨total, htotal⟩ := exists_endsAfter hpools hrows
    refine ⟨total, htotal, ?_⟩
    rintro rfl hapart
    have hstart : (⟨[]⟩ : Table).addresses = (planned routers 0).addresses := rfl
    refine ⟨?_, fun steps after hrun => ?_⟩
    · rw [← length_plan]
      obtain ⟨steps, after, hrun, rfl⟩ := htotal.reached
      obtain ⟨hle, -, hafter⟩ := hrun.follows_plan hpools hapart (Nat.zero_le _) hstart
      rw [Nat.zero_add] at hle hafter
      refine Nat.le_antisymm hle (Nat.le_of_not_lt fun hlt => ?_)
      have hend := (htotal.ends steps after hrun (Nat.le_refl _)).2
      have hpick := isPick_planned hpools hapart hlt
      rw [next_congr routers hafter,
        (next_eq_ok_iff_isPick hpools (isReadable_planned routers _)).mpr ⟨_, hpick⟩] at hend
      cases hend
    · exact (hrun.follows_plan hpools hapart (Nat.zero_le _) hstart).2.1

/-- Pools with host bits: of the three addresses of the first router two are given, as it has only two
blocks for pods. -/
theorem runs_empty_two_routers :
    let routers : List Router :=
      [⟨"A", "a:1", "10.1.0.3/29", "10.2.0.7/22", 24⟩, ⟨"B", "b:1", "10.1.0.8/30", "10.2.4.0/23", 25⟩]
    (∀ r ∈ routers, r.HasPools) ∧ routers.Pairwise Router.IsApart ∧
      plan routers = [(0, ⟨"", "A", "", "10.1.0.4", "10.2.1.7/24"⟩),
        (0, ⟨"", "A", "", "10.1.0.5", "10.2.2.7/24"⟩),
        (1, ⟨"", "B", "", "10.1.0.9", "10.2.4.128/25"⟩),
        (1, ⟨"", "B", "", "10.1.0.10", "10.2.5.0/25"⟩)] ∧
      EndsAfter routers ⟨[]⟩ 4 ∧
      ∀ steps after, Fills routers ⟨[]⟩ steps after → steps = (plan routers).take steps.length := by
  intro routers
  have hpools : ∀ r ∈ routers, r.HasPools := by
    simp only [routers, List.forall_mem_cons]
    exact ⟨⟨⟨_, rfl⟩, ⟨_, rfl⟩⟩, ⟨⟨_, rfl⟩, ⟨_, rfl⟩⟩, nofun⟩
  have hapart : routers.Pairwise Router.IsApart :=
    List.pairwise_pair.mpr ⟨not_holds_of_overlaps rfl rfl rfl, not_holds_of_overlaps rfl rfl rfl⟩
  obtain ⟨-, -, total, hends, hplan⟩ := @runs_empty_routers_in_order routers ⟨[]⟩ hpools nofun
  obtain ⟨htotal, hsteps⟩ := hplan rfl hapart
  have hsum : (routers.map fun r => min r.nodes.length r.pods.length).sum = 4 := by decide +kernel
  exact ⟨hpools, hapart, by decide +kernel, (htotal.trans hsum) ▸ hends, hsteps⟩

end Allocation

end TunnelFleet
