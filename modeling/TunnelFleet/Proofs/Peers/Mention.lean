import TunnelFleet.Proofs.Ini.Cut
import TunnelFleet.Proofs.Peers.Header
import TunnelFleet.Proofs.Peers.Identity

namespace TunnelFleet

namespace Ini.Document

variable {items : List Item}

def secret? (doc : Document) : Option String :=
  (doc.section? "Interface").bind fun part => value? part.entries "PrivateKey"

theorem general_append (items more : List Item) :
    ∃ extra, (ofItems (items ++ more)).general = (ofItems items).general ++ extra := by
  induction items with
  | nil => exact ⟨_, rfl⟩
  | cons item items ih =>
    cases item with
    | header name => exact ⟨[], rfl⟩
    | entry key value =>
      obtain ⟨extra, hextra⟩ := ih
      exact ⟨extra, congrArg _ hextra⟩

theorem section?_append {name : String} {part : Section}
    (h : (ofItems items).section? name = some part) (more : List Item) :
    ∃ extra, (ofItems (items ++ more)).section? name =
      some { part with entries := part.entries ++ extra } := by
  induction items with
  | nil => cases h
  | cons item items ih =>
    cases item with
    | entry key value => exact ih h
    | header title =>
      simp only [section?, ofItems, List.cons_append, List.find?_cons] at h ⊢
      cases hname : title == name with
      | true =>
        rw [hname] at h
        obtain rfl := Option.some.inj h
        obtain ⟨extra, hextra⟩ := general_append items more
        exact ⟨extra, by rw [hextra]⟩
      | false =>
        rw [hname] at h
        exact ih h

theorem secret?_append {secret : String} (h : (ofItems items).secret? = some secret)
    (more : List Item) : (ofItems (items ++ more)).secret? = some secret := by
  obtain ⟨part, hpart, hvalue⟩ := Option.bind_eq_some_iff.mp h
  obtain ⟨extra, hextra⟩ := section?_append hpart more
  obtain ⟨entry, hentry, hsecret⟩ := Option.map_eq_some_iff.mp hvalue
  have hfind : (part.entries ++ extra).find? (fun entry => entry.1 == "PrivateKey") = some entry := by
    rw [List.find?_append, hentry, Option.some_or]
  rw [secret?, hextra, Option.bind_some, value?, hfind, Option.map_some, hsecret]

end Ini.Document

namespace Identity

variable {file header key : String}

/-- A text can be read, and the private key of its interface belongs to this public key. -/
def HasKey (text key : String) : Prop :=
  ∃ doc, Ini.Document.ofText text = .ok doc ∧
    ∃ secret, doc.secret? = some secret ∧ publicKey secret = .ok key

theorem ofTunnelFile_eq_absent {doc : Ini.Document}
    (hdoc : Ini.Document.ofText (String.ofList (Text.before "[Peer]".toList file.toList)) = .ok doc)
    (hsecret : doc.secret? = none) : ofTunnelFile file = .error .absent := by
  rw [Ini.Document.secret?] at hsecret
  rw [ofTunnelFile, hdoc]
  dsimp only
  rw [hsecret]

theorem ofTunnelFile_iff_hasKey (hplain : '\\' ∉ (tunnelHeader file).toList) :
    ofTunnelFile file = .ok key ↔
      HasKey (String.ofList (Text.before "[Peer]".toList (tunnelHeader file).toList)) key :=
  (ofTunnelFile_tunnelHeader_iff hplain key).symm.trans ofTunnelFile_eq_ok_iff

theorem before_eq_self {text : List Char} (h : ¬ "[Peer]".toList <:+: text) :
    Text.before "[Peer]".toList text = text :=
  calc Text.before "[Peer]".toList text
      = Text.before "[Peer]".toList (text ++ []) := by rw [List.append_nil]
    _ = text := Text.before_append (by decide) h (.inl rfl)

theorem HasKey.of_above {text : String} (h : HasKey text key) (cut : Ini.Cut text)
    (habove : (Ini.Document.ofItems cut.above).secret? ≠ none) :
    ∃ secret, (Ini.Document.ofItems (cut.above ++ cut.last)).secret? = some secret ∧
      publicKey secret = .ok key := by
  obtain ⟨doc, hdoc, secret, hsecret, hpublic⟩ := h
  obtain ⟨more, rfl⟩ := cut.exists_ofText hdoc
  obtain ⟨found, hfound⟩ := Option.ne_none_iff_exists'.mp habove
  have hsame := Ini.Document.secret?_append hfound more
  obtain rfl := Option.some.inj (hsame.symm.trans hsecret)
  exact ⟨found, Ini.Document.secret?_append hfound cut.last, hpublic⟩

/-- The key of a tunnel file is read in front of the first mark of a peer, wherever in the header
the mark stands. A header without a mark has the key of the file. A mark in a comment or a value
hides all that follows it: if the header has a key, the file has it when the private key stands
above the line of the mark, and none when what is left does not name one. -/
theorem key_in_front_of_mark (hheader : IsTunnelHeader file header) (hplain : '\\' ∉ header.toList) :
    (∀ key, ofTunnelFile file = .ok key ↔
      HasKey (String.ofList (Text.before "[Peer]".toList header.toList)) key) ∧
    (¬ "[Peer]".toList <:+: header.toList →
      ∀ key, ofTunnelFile file = .ok key ↔ HasKey header key) ∧
    ∀ cut : Ini.Cut header, cut.shown.toList = Text.before "[Peer]".toList header.toList →
      (∀ key, ofTunnelFile file = .ok key ↔
        ∃ secret, (Ini.Document.ofItems (cut.above ++ cut.last)).secret? = some secret ∧
          publicKey secret = .ok key) ∧
      ((Ini.Document.ofItems (cut.above ++ cut.last)).secret? = none →
        ofTunnelFile file = .error .absent) ∧
      ((Ini.Document.ofItems cut.above).secret? ≠ none →
        ∀ key, HasKey header key → ofTunnelFile file = .ok key) := by
  obtain rfl := hheader.eq_tunnelHeader
  refine ⟨fun key => ofTunnelFile_iff_hasKey hplain, fun hmark key => ?_, fun cut hfirst => ?_⟩
  · rw [ofTunnelFile_iff_hasKey hplain, before_eq_self hmark, String.ofList_toList]
  · have hshown := cut.ofText_shown hplain
    rw [← String.ofList_toList (s := cut.shown), hfirst] at hshown
    have hkey (key : String) : ofTunnelFile file = .ok key ↔
        ∃ secret, (Ini.Document.ofItems (cut.above ++ cut.last)).secret? = some secret ∧
          publicKey secret = .ok key := by
      rw [ofTunnelFile_iff_hasKey hplain, HasKey, hshown]
      simp
    have hfile := (ofText_tunnelHeader_iff hplain _).mp hshown
    exact ⟨hkey, ofTunnelFile_eq_absent hfile,
      fun habove key hheaderKey => (hkey key).mpr (hheaderKey.of_above cut habove)⟩

def commentedFile : String :=
  "[Interface]\n# see [Peer]\nPrivateKey = " ++ countingSecret ++ "\n"

theorem isTunnelHeader_commentedFile : IsTunnelHeader commentedFile commentedFile := by
  rw [isTunnelHeader_iff]
  decide +kernel

theorem hasKey_commentedFile :
    HasKey commentedFile (Base64.text (Curve.publicKey ((List.range 32).map UInt8.ofNat))) := by
  have hdoc : Ini.Document.ofText commentedFile =
      .ok ⟨[], [⟨"Interface", [("PrivateKey", countingSecret)]⟩]⟩ := by decide +kernel
  exact ⟨_, hdoc, countingSecret, rfl, publicKey_countingSecret⟩

def commentedCut : Ini.Cut commentedFile where
  head := "[Interface]\n".toList
  left := "# see ".toList
  tail := ("[Peer]\nPrivateKey = " ++ countingSecret ++ "\n").toList
  key := []
  place := ⟨("# see [Peer]\nPrivateKey = " ++ countingSecret ++ "\n").toList, 1, 1⟩
  above := [.header "Interface"]
  last := []
  text_eq := by decide +kernel
  reaches := by
    have hturn : Ini.turn [] '[' (Ini.Cursor.ofText commentedFile) =
        .ok ⟨some (.header "Interface"), [],
          ⟨("# see [Peer]\nPrivateKey = " ++ countingSecret ++ "\n").toList, 1, 1⟩⟩ := by
      decide +kernel
    exact .turn rfl hturn (.here _ _)
  rest_eq := by decide +kernel
  remnant := .comment (.inr rfl) (Nat.le_refl 1) (by decide)

/-- Below the comment a private key counts for nothing. -/
theorem key_in_front_of_mark_commented :
    IsTunnelHeader commentedFile commentedFile ∧ '\\' ∉ commentedFile.toList ∧
      commentedCut.shown.toList = Text.before "[Peer]".toList commentedFile.toList ∧
      (∃ key, HasKey commentedFile key) ∧ ofTunnelFile commentedFile = .error .absent := by
  have hplain : '\\' ∉ commentedFile.toList := by decide +kernel
  have hfirst : commentedCut.shown.toList = Text.before "[Peer]".toList commentedFile.toList := by
    decide +kernel
  obtain ⟨-, -, hmark⟩ := key_in_front_of_mark isTunnelHeader_commentedFile hplain
  obtain ⟨-, habsent, -⟩ := hmark commentedCut hfirst
  exact ⟨isTunnelHeader_commentedFile, hplain, hfirst, ⟨_, hasKey_commentedFile⟩, habsent rfl⟩

/-- The file and its header, read as it stands, do not always have the same key. -/
theorem not_hasKey_header_iff : ¬ ∀ file header, '\\' ∉ file.toList → IsTunnelHeader file header →
    ∀ key, ofTunnelFile file = .ok key ↔ HasKey header key := by
  intro hall
  have hkey := (hall commentedFile commentedFile (by decide +kernel) isTunnelHeader_commentedFile
    _).mpr hasKey_commentedFile
  have habsent : ofTunnelFile commentedFile = .error .absent := by decide +kernel
  cases habsent.symm.trans hkey

end Identity

end TunnelFleet
