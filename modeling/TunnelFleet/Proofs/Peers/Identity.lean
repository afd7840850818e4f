import TunnelFleet.Proofs.Ini.Newline
import TunnelFleet.Proofs.Peers.File

namespace TunnelFleet

namespace Text

theorem mem_of_mem_before {mark cs : List Char} {c : Char} (h : c ∈ before mark cs) : c ∈ cs := by
  obtain ⟨tail, hcs, -⟩ := exists_append_of_before mark cs
  rw [hcs]
  exact List.mem_append_left _ h

theorem before_append_line (mark head : List Char) {tail : List Char} (hne : mark ≠ [])
    (hmark : '\n' ∉ mark) (htail : tail = [] ∨ '\n' :: mark <+: tail) :
    before mark (head ++ tail) = before mark head ∨
      before mark (head ++ tail) = before mark head ++ ['\n'] := by
  induction head with
  | nil =>
    rcases htail with rfl | ⟨rest, rfl⟩
    · exact .inl rfl
    · right
      obtain ⟨c, cs, rfl⟩ := List.exists_cons_of_ne_nil hne
      obtain ⟨hc, -⟩ := List.ne_and_not_mem_of_not_mem_cons hmark
      simp [before, Ne.symm hc]
  | cons c head ih =>
    have hline : tail = [] ∨ ['\n'] <+: tail := htail.imp_right (List.IsPrefix.trans ⟨_, rfl⟩)
    have hprefix : mark <+: (c :: head) ++ tail ↔ mark <+: c :: head :=
      prefix_append_iff hmark hline
    have hstart : mark.isPrefixOf (c :: (head ++ tail)) = mark.isPrefixOf (c :: head) := by
      rwa [Bool.eq_iff_iff, List.isPrefixOf_iff_prefix, List.isPrefixOf_iff_prefix]
    rw [List.cons_append, before, before, hstart]
    split
    · exact .inl rfl
    · exact ih.imp (congrArg _) (congrArg _)

end Text

namespace Identity

variable {file : String}

theorem ofText_tunnelHeader_iff (h : '\\' ∉ (tunnelHeader file).toList) (doc : Ini.Document) :
    Ini.Document.ofText (String.ofList (Text.before "[Peer]".toList (tunnelHeader file).toList)) =
        .ok doc ↔
      Ini.Document.ofText (String.ofList (Text.before "[Peer]".toList file.toList)) = .ok doc := by
  obtain ⟨tail, hfile, htail⟩ := Text.exists_append_of_before "\n[Peer]".toList file.toList
  rw [← toList_tunnelHeader] at hfile
  have hplain : '\\' ∉ Text.before "[Peer]".toList (tunnelHeader file).toList :=
    fun hmem => h (Text.mem_of_mem_before hmem)
  have hcut := Text.before_append_line "[Peer]".toList (tunnelHeader file).toList (by decide)
    (by decide) htail
  rw [← hfile] at hcut
  rcases hcut with heq | heq
  · rw [heq]
  · rw [heq, String.ofList_append]
    exact (Ini.ofText_append_newline_iff (by rwa [String.toList_ofList]) doc).symm

theorem ofTunnelFile_tunnelHeader_iff (h : '\\' ∉ (tunnelHeader file).toList) (key : String) :
    ofTunnelFile (tunnelHeader file) = .ok key ↔ ofTunnelFile file = .ok key := by
  rw [ofTunnelFile_eq_ok_iff, ofTunnelFile_eq_ok_iff]
  exact exists_congr fun doc => and_congr_left fun _ => ofText_tunnelHeader_iff h doc

end Identity

/-- Whatever peers are put in, a file has a key if and only if it had one before, and the same. -/
theorem key_of_assemble_iff {file : String} {blocks : List String}
    (hplain : '\\' ∉ (tunnelHeader file).toList) (hblocks : ∀ block ∈ blocks, IsPeerBlock block)
    (key : String) :
    Identity.ofTunnelFile (assemble file blocks) = .ok key ↔
      Identity.ofTunnelFile file = .ok key := by
  have hheader := tunnelHeader_assemble file hblocks
  have hassembled := Identity.ofTunnelFile_tunnelHeader_iff (hheader.symm ▸ hplain) key
  rw [hheader] at hassembled
  exact hassembled.symm.trans (Identity.ofTunnelFile_tunnelHeader_iff hplain key)

/-- A file whose line feed behind a quoted key is cut with its peer. -/
theorem key_of_assemble_quoted :
    let secret := Identity.countingSecret
    let file := "[Interface]\nPrivateKey = \"" ++ secret ++ "\"\n[Peer] # old\n"
    assemble file [] = "[Interface]\nPrivateKey = \"" ++ secret ++ "\"" ∧
      ∃ key, Identity.ofTunnelFile file = .ok key ∧
        Identity.ofTunnelFile (assemble file []) = .ok key := by
  intro secret file
  have hdoc : Ini.Document.ofText (String.ofList (Text.before "[Peer]".toList file.toList)) =
      .ok ⟨[], [⟨"Interface", [("PrivateKey", secret)]⟩]⟩ := by decide +kernel
  have hkey := Identity.ofTunnelFile_eq_ok_iff.mpr
    ⟨_, hdoc, secret, rfl, Identity.publicKey_countingSecret⟩
  have hplain : '\\' ∉ (tunnelHeader file).toList := by decide +kernel
  exact ⟨by decide +kernel, _, hkey,
    (key_of_assemble_iff hplain (List.forall_mem_nil _) _).mpr hkey⟩

end TunnelFleet
