import TunnelFleet.Proofs.Peers.Assemble

namespace TunnelFleet

/-- What stands in a tunnel file before the first line feed that a peer directly follows. -/
structure IsTunnelHeader (file header : String) : Prop where
  begins : ∃ tail, file.toList = header.toList ++ tail ∧
    (tail = [] ∨ "\n[Peer]".toList <+: tail)
  first : ¬ "\n[Peer]".toList <:+: header.toList

variable {file header : String} {blocks : List String}

theorem isTunnelHeader_tunnelHeader (file : String) : IsTunnelHeader file (tunnelHeader file) where
  begins := by
    rw [toList_tunnelHeader]
    exact Text.exists_append_of_before _ _
  first := by
    have hmark : "\n[Peer]".toList ≠ [] := by decide
    rw [toList_tunnelHeader]
    exact Text.not_infix_before hmark _

theorem IsTunnelHeader.eq_tunnelHeader (h : IsTunnelHeader file header) :
    header = tunnelHeader file := by
  obtain ⟨tail, hfile, htail⟩ := h.begins
  have hbefore : Text.before "\n[Peer]".toList file.toList = header.toList := by
    rw [hfile]
    exact Text.before_append (by decide) h.first htail
  rw [tunnelHeader, hbefore, String.ofList_toList]

theorem isTunnelHeader_iff : IsTunnelHeader file header ↔ header = tunnelHeader file :=
  ⟨IsTunnelHeader.eq_tunnelHeader, fun h => h ▸ isTunnelHeader_tunnelHeader file⟩

/-- Peers that are put into a file leave its header, replace all that stood behind it, and are
themselves replaced by the next ones. So putting in the same peers again changes nothing. -/
theorem last_assembly_wins (hblocks : ∀ block ∈ blocks, IsPeerBlock block) :
    ∃ peers : String, ∀ file, ∃ header, (∀ other, IsTunnelHeader file other ↔ other = header) ∧
      assemble file blocks = header ++ peers ∧
      IsTunnelHeader (assemble file blocks) header ∧
      (∀ others, assemble (assemble file blocks) others = assemble file others) ∧
      assemble (assemble file blocks) blocks = assemble file blocks := by
  refine ⟨String.join (blocks.map fun block => "\n" ++ block), fun file =>
    ⟨tunnelHeader file, fun other => isTunnelHeader_iff, rfl, ?_, fun others => ?_, ?_⟩⟩
  · rw [isTunnelHeader_iff, tunnelHeader_assemble file hblocks]
  · exact assemble_assemble file others hblocks
  · exact assemble_assemble file blocks hblocks

/-- A header that speaks of peers inside its lines and ends with line feeds of its own. -/
theorem last_assembly_wins_spoken :
    let file := "[Interface]\n# [Peer]\n [Peer]\n\n\n[Peer] # old\n"
    let blocks := ["[Peer] # a\n", "[Peer]"]
    (∀ block ∈ blocks, IsPeerBlock block) ∧
      IsTunnelHeader file "[Interface]\n# [Peer]\n [Peer]\n\n" ∧
      assemble file blocks = "[Interface]\n# [Peer]\n [Peer]\n\n\n[Peer] # a\n\n[Peer]" ∧
      assemble (assemble file blocks) blocks = assemble file blocks ∧
      assemble (assemble file blocks) [] = assemble file [] := by
  intro file blocks
  have hblocks : ∀ block ∈ blocks, IsPeerBlock block := by
    rintro block hblock
    simp only [blocks, List.mem_cons, List.not_mem_nil, or_false] at hblock
    rcases hblock with rfl | rfl
    · exact ⟨" # a\n".toList, by decide⟩
    · exact ⟨[], by decide⟩
  obtain ⟨peers, hpeers⟩ := last_assembly_wins hblocks
  obtain ⟨header, hheader, -, -, hothers, hsame⟩ := hpeers file
  have hfile : IsTunnelHeader file "[Interface]\n# [Peer]\n [Peer]\n\n" := by
    rw [isTunnelHeader_iff]
    decide +kernel
  exact ⟨hblocks, hfile, by decide +kernel, hsame, hothers []⟩

end TunnelFleet
