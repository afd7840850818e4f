import Mathlib.Data.List.TakeWhile
import TunnelFleet.Proofs.Key.Identity
import TunnelFleet.Proofs.Peers.Assemble
import TunnelFleet.Proofs.Peers.Lines

namespace TunnelFleet

namespace Text

/-- What stands above the first line that begins with a mark, or all of the text. -/
def above (mark s : String) : String :=
  String.ofList (['\n'].intercalate
    ((splitAt '\n' s.toList).takeWhile fun line => !mark.toList.isPrefixOf line))

def firstLine (s : String) : String :=
  String.ofList (s.toList.takeWhile (· != '\n'))

theorem firstLine_of_line {line rest : String} (h : '\n' ∉ line.toList) :
    firstLine (line ++ "\n" ++ rest) = line := by
  have hline : ∀ c ∈ line.toList, (c != '\n') = true := by
    intro c hc
    exact bne_iff_ne.mpr fun heq => h (heq ▸ hc)
  rw [firstLine, String.append_assoc, String.toList_append, List.takeWhile_append_of_pos hline,
    String.toList_append]
  simp

section Above

variable {mark head tail : List Char}

theorem prefix_append_iff (hmark : '\n' ∉ mark) (htail : tail = [] ∨ ['\n'] <+: tail) :
    mark <+: head ++ tail ↔ mark <+: head := by
  refine ⟨fun h => ?_, fun h => h.trans (List.prefix_append head tail)⟩
  rcases List.prefix_or_prefix_of_prefix h (List.prefix_append head tail) with h' | ⟨more, rfl⟩
  · exact h'
  · cases more with
    | nil => simp
    | cons c more =>
      have hmore : c :: more <+: tail := (List.prefix_append_right_inj head).mp h
      rcases htail with rfl | ⟨rest, rfl⟩
      · simp at hmore
      · obtain ⟨rfl, -⟩ := List.cons_prefix_cons.mp hmore
        simp at hmark

theorem splitAt_before (hmark : '\n' ∉ mark) (cs : List Char) :
    ∃ first rest, splitAt '\n' cs = first :: rest ∧
      splitAt '\n' (before ('\n' :: mark) cs) =
        first :: rest.takeWhile fun line => !mark.isPrefixOf line := by
  induction cs with
  | nil => exact ⟨[], [], rfl, rfl⟩
  | cons c cs ih =>
    obtain ⟨first, rest, hsplit, hbefore⟩ := ih
    by_cases hc : c = '\n'
    · subst hc
      refine ⟨[], first :: rest, by rw [splitAt, if_pos rfl, hsplit], ?_⟩
      obtain ⟨tail, hcs, htail⟩ := exists_append_of_splitAt hsplit
      have hfirst : mark <+: cs ↔ mark <+: first := hcs ▸ prefix_append_iff hmark htail
      by_cases hstart : mark <+: first
      · have hwhole : ('\n' :: mark).isPrefixOf ('\n' :: cs) = true := by
          simpa using hfirst.mpr hstart
        have hline : mark.isPrefixOf first = true := List.isPrefixOf_iff_prefix.mpr hstart
        rw [before, if_pos hwhole, List.takeWhile_cons_of_neg (by simp [hline])]
        rfl
      · have hwhole : ¬ ('\n' :: mark).isPrefixOf ('\n' :: cs) = true := by
          simpa using fun h => hstart (hfirst.mp h)
        have hline : mark.isPrefixOf first = false :=
          Bool.eq_false_iff.mpr fun h => hstart (List.isPrefixOf_iff_prefix.mp h)
        rw [before, if_neg hwhole, splitAt, if_pos rfl, hbefore,
          List.takeWhile_cons_of_pos (by simp [hline])]
    · have hwhole : ¬ ('\n' :: mark).isPrefixOf (c :: cs) = true := by
        simp [Ne.symm hc]
      refine ⟨c :: first, rest, by rw [splitAt, if_neg hc, hsplit], ?_⟩
      rw [before, if_neg hwhole, splitAt, if_neg hc, hbefore]

theorem splitAt_before_of_not_prefix {cs : List Char} (hmark : '\n' ∉ mark) (h : ¬ mark <+: cs) :
    splitAt '\n' (before ('\n' :: mark) cs) =
      (splitAt '\n' cs).takeWhile fun line => !mark.isPrefixOf line := by
  obtain ⟨first, rest, hsplit, hbefore⟩ := splitAt_before hmark cs
  obtain ⟨tail, rfl, htail⟩ := exists_append_of_splitAt hsplit
  have hfirst : mark.isPrefixOf first = false := by
    refine Bool.eq_false_iff.mpr fun hstart => h ?_
    exact (prefix_append_iff hmark htail).mpr (List.isPrefixOf_iff_prefix.mp hstart)
  rw [hbefore, hsplit, List.takeWhile_cons_of_pos (by simp [hfirst])]

end Above

end Text

section

variable {file : String}

theorem above_eq_tunnelHeader (h : ¬ IsPeerBlock file) :
    Text.above "[Peer]" file = tunnelHeader file := by
  rw [Text.above, ← Text.splitAt_before_of_not_prefix (by decide) h, Text.intercalate_splitAt]
  rfl

theorem linesFrom_tunnelHeader (h : ¬ IsPeerBlock file) :
    Text.linesFrom "[Peer]" (tunnelHeader file) = [] := by
  have hlines := Text.splitAt_before_of_not_prefix (by decide) h
  have hnone : (Text.splitAt '\n' (tunnelHeader file).toList).filter
      ("[Peer]".toList.isPrefixOf ·) = [] := by
    rw [toList_tunnelHeader, show "\n[Peer]".toList = '\n' :: "[Peer]".toList from rfl, hlines]
    refine List.filter_eq_nil_iff.mpr fun line hline hstart => ?_
    have hother := List.mem_takeWhile_imp hline
    simp only [hstart] at hother
    cases hother
  rw [Text.linesFrom, hnone, List.map_nil]

/-- The key is read from what stands before the first peer, so a file that begins with one has no
key. -/
theorem not_isPeerBlock_of_ofTunnelFile {key : String} (h : Identity.ofTunnelFile file = .ok key) :
    ¬ IsPeerBlock file := by
  rintro ⟨rest, hrest⟩
  have hbefore : Text.before "[Peer]".toList file.toList = [] := by
    rw [← hrest]
    simp [Text.before]
  have habsent : Ini.Document.ofText (String.ofList []) = .ok ⟨[], []⟩ := by decide +kernel
  rw [Identity.ofTunnelFile, hbefore, habsent] at h
  cases h

theorem isPeerBlock_append_iff {header : String} {tail : List Char}
    (hfile : file.toList = header.toList ++ tail) (htail : tail = [] ∨ "\n[Peer]".toList <+: tail) :
    IsPeerBlock file ↔ IsPeerBlock header := by
  have hline : tail = [] ∨ ['\n'] <+: tail := htail.imp_right (List.IsPrefix.trans ⟨_, rfl⟩)
  rw [IsPeerBlock, IsPeerBlock, hfile, Text.prefix_append_iff (by decide) hline]

theorem isPeerBlock_assemble_iff {blocks : List String} (h : ∀ block ∈ blocks, IsPeerBlock block) :
    IsPeerBlock (assemble file blocks) ↔ IsPeerBlock file := by
  obtain ⟨tail, hfile, htail⟩ := Text.exists_append_of_before "\n[Peer]".toList file.toList
  rw [← toList_tunnelHeader] at hfile
  rw [assemble, isPeerBlock_append_iff (String.toList_append ..) (prefix_join_of_isPeerBlock h),
    isPeerBlock_append_iff hfile htail]

end

namespace Allocation

variable {row : Allocation} {rows : List Allocation}

theorem isOneLine_of_fields (h : ∀ field ∈ row.fields, '\n' ∉ field.toList) : row.IsOneLine where
  nodeName := h _ (by simp [fields])
  nodeIP := h _ (by simp [fields])
  podNet := h _ (by simp [fields])

theorem firstLine_peerBlock (h : row.IsOneLine) : Text.firstLine row.peerBlock = row.peerLine := by
  rw [peerBlock_eq, Text.firstLine_of_line h.peerLine]

theorem peers_peerBlock (h : ∀ field ∈ row.fields, '\n' ∉ field.toList) :
    Text.linesFrom "[Peer]" row.peerBlock = [row.peerLine] := by
  have hkey : '\n' ∉ row.nodeKey.toList := h _ (by simp [fields])
  have hjoin := peers_join (List.forall_mem_singleton.mpr (isOneLine_of_fields h))
  simpa [Text.furtherLinesFrom_of_line _ hkey] using hjoin

theorem peers_append_join (front : String)
    (h : ∀ row ∈ rows, ∀ field ∈ row.fields, '\n' ∉ field.toList) :
    Text.linesFrom "[Peer]"
        (front ++ String.join ((rows.map peerBlock).map fun block => "\n" ++ block)) =
      Text.linesFrom "[Peer]" front ++ rows.map peerLine := by
  induction rows generalizing front with
  | nil => simp
  | cons row rest ih =>
    obtain ⟨hrow, hrest⟩ := List.forall_mem_cons.mp h
    rw [List.map_cons, List.map_cons, String.join_cons, ← String.append_assoc,
      ← String.append_assoc, ih (front ++ "\n" ++ row.peerBlock) hrest,
      Text.linesFrom_append_line, peers_peerBlock hrow, List.append_assoc, List.singleton_append, List.map_cons]

end Allocation

open Allocation (peerBlock peerLine) in
/-- Of a file with a key nothing but what stands above its first peer is left when peers are put in:
the peers are then those of the rows, in their order. -/
theorem peers_of_assemble {file key : String} {rows : List Allocation}
    (h : Identity.ofTunnelFile file = .ok key)
    (hrows : ∀ row ∈ rows, ∀ field ∈ row.fields, '\n' ∉ field.toList) :
    Text.linesFrom "[Peer]" (assemble file (rows.map peerBlock)) =
        (rows.map peerBlock).map Text.firstLine ∧
      Text.above "[Peer]" (assemble file (rows.map peerBlock)) = Text.above "[Peer]" file ∧
      (rows = [] → assemble file (rows.map peerBlock) = Text.above "[Peer]" file) := by
  have hfile := not_isPeerBlock_of_ofTunnelFile h
  have hblocks : ∀ block ∈ rows.map peerBlock, IsPeerBlock block := by
    intro block hblock
    obtain ⟨row, -, rfl⟩ := List.mem_map.mp hblock
    exact row.isPeerBlock_peerBlock
  have habove := above_eq_tunnelHeader hfile
  refine ⟨?_, ?_, ?_⟩
  · have hfirst : (rows.map peerBlock).map Text.firstLine = rows.map peerLine := by
      rw [List.map_map]
      exact List.map_congr_left fun row hrow =>
        Allocation.firstLine_peerBlock (Allocation.isOneLine_of_fields (hrows row hrow))
    rw [assemble, Allocation.peers_append_join _ hrows, linesFrom_tunnelHeader hfile, hfirst,
      List.nil_append]
  · have hassembled := (isPeerBlock_assemble_iff hblocks).not.mpr hfile
    rw [above_eq_tunnelHeader hassembled, tunnelHeader_assemble file hblocks, habove]
  · rintro rfl
    rw [habove]
    simp [assemble]

theorem peers_of_assemble_small :
    let secret := Identity.countingSecret
    let file := "[Interface]\nPrivateKey = " ++ secret ++ "\n# x [Peer]\n[Peer] # old\n[Peer]\n"
    let rows : List Allocation := [⟨"K", "R", "n", "10.1.0.1", "10.2.1.0/24"⟩]
    (∃ key, Identity.ofTunnelFile file = .ok key) ∧
      Text.linesFrom "[Peer]" (assemble file (rows.map Allocation.peerBlock)) = ["[Peer] # n"] ∧
      Text.above "[Peer]" (assemble file (rows.map Allocation.peerBlock)) =
        "[Interface]\nPrivateKey = " ++ secret ++ "\n# x [Peer]" := by
  intro secret file rows
  have hdoc : Ini.Document.ofText (String.ofList (Text.before "[Peer]".toList file.toList)) =
      .ok ⟨[], [⟨"Interface", [("PrivateKey", secret)]⟩]⟩ := by decide +kernel
  have hkey := Identity.ofTunnelFile_eq_ok_iff.mpr
    ⟨_, hdoc, secret, rfl, Identity.publicKey_countingSecret⟩
  have hrows : ∀ row ∈ rows, ∀ field ∈ row.fields, '\n' ∉ field.toList := by decide
  obtain ⟨hpeers, habove, -⟩ := peers_of_assemble hkey hrows
  exact ⟨⟨_, hkey⟩, hpeers.trans (by decide +kernel), habove.trans (by decide +kernel)⟩

end TunnelFleet
