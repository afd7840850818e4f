import TunnelFleet.Networking.Reader
import TunnelFleet.Proofs.Decimal.Unsigned
import TunnelFleet.Proofs.Reading

namespace TunnelFleet

namespace Ini

variable {entries : List (String × String)} {key value : String}

theorem value?_eq_some_iff : value? entries key = some value ↔
    ∃ front back, entries = front ++ (key, value) :: back ∧ ∀ entry ∈ front, entry.1 ≠ key := by
  rw [value?, Option.map_eq_some_iff]
  constructor
  · rintro ⟨⟨name, text⟩, hfound, rfl⟩
    obtain ⟨hname, front, back, hentries, hfront⟩ := List.find?_eq_some_iff_append.mp hfound
    obtain rfl : name = key := by simpa using hname
    exact ⟨front, back, hentries, fun entry hentry => by simpa using hfront entry hentry⟩
  · rintro ⟨front, back, rfl, hfront⟩
    exact ⟨(key, value), List.find?_eq_some_iff_append.mpr
      ⟨by simp, front, back, rfl, fun entry hentry => by simpa using hfront entry hentry⟩, rfl⟩

theorem value?_eq_none_iff : value? entries key = none ↔ ∀ entry ∈ entries, entry.1 ≠ key := by
  simp [value?]

end Ini

structure Router.IsReadFrom (r : Router) (entries : List (String × String)) : Prop where
  publicKey : Ini.value? entries "PublicKey" = some r.publicKey
  endpoint : Ini.value? entries "Endpoint" = some r.endpoint
  nodePool : Ini.value? entries "NodePool" = some r.nodePool
  podPool : Ini.value? entries "PodPool" = some r.podPool
  podLen : ∃ text, Ini.value? entries "PodPrefixLen" = some text ∧ Decimal.Spells text r.podLen
  podLen_le : r.podLen ≤ 32

/-- The sections that are about routers, in their order. -/
def Ini.Document.routers (doc : Ini.Document) : List Ini.Section :=
  doc.sections.filter fun part => part.name == "Router"

def Ini.Number? (entries : List (String × String)) (key : String) : Option Nat → Prop :=
  Option.Rel (fun text number => Decimal.Spells text number ∧ number ≤ 4294967295)
    (Ini.value? entries key)

/-- What settings say that were read from a document. -/
structure Networking.IsReadFrom (n : Networking) (doc : Ini.Document) : Prop where
  nodeRange : Ini.value? doc.general "NodeRange" = some n.nodeRange
  nodeRange_ne : n.nodeRange ≠ ""
  podRange : n.podRange = (Ini.value? doc.general "PodRange").getD ""
  serviceRange : n.serviceRange = (Ini.value? doc.general "ServiceRange").getD ""
  mode : Ini.value? doc.general "WireguardMode" = n.mode.map Mode.text
  cniNumber : Ini.Number? doc.general "CniNumber" n.cniNumber
  cniMtu : Ini.Number? doc.general "CniMtu" n.cniMtu
  routers : List.Forall₂ (fun r part => r.IsReadFrom part.entries) n.routers doc.routers

/-- Two documents that are alike in the first values of the keys of settings, and in those of the
keys of routers, section by section. -/
structure Ini.Document.AgreesWith (doc other : Ini.Document) : Prop where
  general : ∀ key ∈ ["NodeRange", "PodRange", "ServiceRange", "WireguardMode", "CniNumber", "CniMtu"],
    Ini.value? doc.general key = Ini.value? other.general key
  routers : List.Forall₂ (fun part otherPart : Ini.Section =>
    ∀ key ∈ ["PublicKey", "Endpoint", "NodePool", "PodPool", "PodPrefixLen"],
      Ini.value? part.entries key = Ini.value? otherPart.entries key) doc.routers other.routers

/-- What is wrong with settings that were read but make no sense. -/
structure NetworkingError.IsInvalid (e : NetworkingError) : Prop where
  readable : ∀ fault, e ≠ .unreadable fault
  words : e.message = "Invalid networking config: " ++ e.detail

structure Ini.IsRouter (entries : List (String × String)) : Prop where
  texts : ∀ key ∈ ["PublicKey", "Endpoint", "NodePool", "PodPool"],
    ∃ text, Ini.value? entries key = some text
  podLen : ∃ text len, Ini.value? entries "PodPrefixLen" = some text ∧ Decimal.Spells text len ∧
    len ≤ 32

def Ini.MayBeNumber (entries : List (String × String)) (key : String) : Prop :=
  ∀ text, Ini.value? entries key = some text →
    ∃ number, Decimal.Spells text number ∧ number ≤ 4294967295

/-- A document has all that settings need, and nothing in it that they cannot have. -/
structure Ini.Document.IsNetworking (doc : Ini.Document) : Prop where
  nodeRange : ∃ range, Ini.value? doc.general "NodeRange" = some range ∧ range ≠ ""
  routers : ∀ part ∈ doc.sections, part.name = "Router" → Ini.IsRouter part.entries
  mode : ∀ text, Ini.value? doc.general "WireguardMode" = some text →
    text = "SelfProvision" ∨ text = "Manual"
  cniNumber : Ini.MayBeNumber doc.general "CniNumber"
  cniMtu : Ini.MayBeNumber doc.general "CniMtu"

namespace Router

variable {entries : List (String × String)} {key text : String} {r : Router}

theorem required_eq_ok_iff : required entries key = .ok text ↔ Ini.value? entries key = some text := by
  unfold required
  split
  next found heq => simp [heq]
  next heq => simp [heq]

theorem ofEntries_eq_ok_iff : ofEntries entries = .ok r ↔ r.IsReadFrom entries := by
  constructor
  · intro h
    obtain ⟨podLenText, hpodLenText, h⟩ := bind_eq_ok_iff.mp h
    split at h
    next => cases h
    next podLen hpodLen =>
      obtain ⟨publicKey, hpublicKey, h⟩ := bind_eq_ok_iff.mp h
      obtain ⟨endpoint, hendpoint, h⟩ := bind_eq_ok_iff.mp h
      obtain ⟨nodePool, hnodePool, h⟩ := bind_eq_ok_iff.mp h
      obtain ⟨podPool, hpodPool, h⟩ := bind_eq_ok_iff.mp h
      obtain rfl := Except.ok.inj h
      obtain ⟨hnumber, hle⟩ := Option.filter_eq_some_iff.mp hpodLen
      exact {
        publicKey := required_eq_ok_iff.mp hpublicKey
        endpoint := required_eq_ok_iff.mp hendpoint
        nodePool := required_eq_ok_iff.mp hnodePool
        podPool := required_eq_ok_iff.mp hpodPool
        podLen := ⟨podLenText, required_eq_ok_iff.mp hpodLenText,
          (Decimal.unsigned?_eq_some_iff.mp hnumber).1⟩
        podLen_le := of_decide_eq_true hle }
  · intro h
    obtain ⟨podLenText, hpodLenText, hspells⟩ := h.podLen
    have hnumber : (Decimal.unsigned? 255 podLenText).filter (· ≤ 32) = some r.podLen :=
      Option.filter_eq_some_iff.mpr ⟨Decimal.unsigned?_eq_some_iff.mpr
        ⟨hspells, Nat.le_trans h.podLen_le (by decide)⟩, decide_eq_true h.podLen_le⟩
    rw [ofEntries, required_eq_ok_iff.mpr hpodLenText, required_eq_ok_iff.mpr h.publicKey,
      required_eq_ok_iff.mpr h.endpoint, required_eq_ok_iff.mpr h.nodePool,
      required_eq_ok_iff.mpr h.podPool]
    simp only [bind, Except.bind, hnumber]

theorem ofEntries_congr {other : List (String × String)}
    (h : ∀ key ∈ ["PublicKey", "Endpoint", "NodePool", "PodPool", "PodPrefixLen"],
      Ini.value? entries key = Ini.value? other key) : ofEntries entries = ofEntries other := by
  simp only [List.forall_mem_cons] at h
  obtain ⟨hpublicKey, hendpoint, hnodePool, hpodPool, hpodLen, -⟩ := h
  simp only [ofEntries, required, hpublicKey, hendpoint, hnodePool, hpodPool, hpodLen]

theorem isInvalid_of_required {e : NetworkingError} (h : required entries key = .error e) :
    e.IsInvalid := by
  unfold required at h
  split at h
  next => cases h
  next =>
    cases h
    exact ⟨by simp, rfl⟩

theorem isInvalid_of_ofEntries {e : NetworkingError} (h : ofEntries entries = .error e) :
    e.IsInvalid := by
  rcases bind_eq_error_iff.mp h with h | ⟨podLenText, -, h⟩
  · exact isInvalid_of_required h
  · split at h
    next =>
      cases h
      exact ⟨by simp, rfl⟩
    next =>
      rcases bind_eq_error_iff.mp h with h | ⟨publicKey, -, h⟩
      · exact isInvalid_of_required h
      rcases bind_eq_error_iff.mp h with h | ⟨endpoint, -, h⟩
      · exact isInvalid_of_required h
      rcases bind_eq_error_iff.mp h with h | ⟨nodePool, -, h⟩
      · exact isInvalid_of_required h
      rcases bind_eq_error_iff.mp h with h | ⟨podPool, -, h⟩
      · exact isInvalid_of_required h
      cases h

theorem exists_isReadFrom_iff : (∃ r : Router, r.IsReadFrom entries) ↔ Ini.IsRouter entries := by
  constructor
  · rintro ⟨r, h⟩
    obtain ⟨text, htext, hspells⟩ := h.podLen
    refine ⟨?_, text, r.podLen, htext, hspells, h.podLen_le⟩
    simp only [List.forall_mem_cons, List.not_mem_nil]
    exact ⟨⟨_, h.publicKey⟩, ⟨_, h.endpoint⟩, ⟨_, h.nodePool⟩, ⟨_, h.podPool⟩, nofun⟩
  · rintro ⟨htexts, text, len, htext, hspells, hle⟩
    simp only [List.forall_mem_cons, List.not_mem_nil] at htexts
    obtain ⟨⟨publicKey, h1⟩, ⟨endpoint, h2⟩, ⟨nodePool, h3⟩, ⟨podPool, h4⟩, -⟩ := htexts
    exact ⟨⟨publicKey, endpoint, nodePool, podPool, len⟩, h1, h2, h3, h4, ⟨text, htext, hspells⟩, hle⟩

end Router

theorem Mode.ofText?_eq_some_iff {s : String} {mode : Mode} :
    ofText? s = some mode ↔ s = mode.text := by
  unfold ofText?
  split
  next h => cases mode <;> simp [h, text]
  next h =>
    split
    next hmanual => cases mode <;> simp [hmanual, text]
    next hmanual => cases mode <;> simp [h, hmanual, text]

namespace Networking

variable {entries : List (String × String)} {key : String} {n : Networking} {doc : Ini.Document}

theorem optionalMode_eq_ok_iff {mode : Option Mode} :
    optionalMode entries = .ok mode ↔ Ini.value? entries "WireguardMode" = mode.map Mode.text := by
  unfold optionalMode Mode.ofText
  split
  next h => cases mode <;> simp [h]
  next text h =>
    rw [h]
    split
    next found hfound =>
      obtain rfl := Mode.ofText?_eq_some_iff.mp hfound
      cases mode with
      | none => simp [Except.map]
      | some mode => cases found <;> cases mode <;> simp [Except.map, Mode.text]
    next hnone =>
      cases mode with
      | none => simp [Except.map]
      | some mode =>
        have hne : text ≠ mode.text := fun heq => by
          rw [Mode.ofText?_eq_some_iff.mpr heq] at hnone
          cases hnone
        simpa [Except.map] using hne

theorem optionalNumber_eq_ok_iff {number : Option Nat} :
    optionalNumber entries key = .ok number ↔ Ini.Number? entries key number := by
  unfold optionalNumber Ini.Number?
  simp only [← Decimal.unsigned?_eq_some_iff]
  split
  next h =>
    rw [h]
    cases number <;> simp
  next text h =>
    rw [h]
    cases number with
    | none => split <;> simp
    | some number => split <;> simp_all

theorem ofDocument_eq_ok_iff : ofDocument doc = .ok n ↔ n.IsReadFrom doc := by
  constructor
  · intro h
    unfold ofDocument at h
    split at h
    next => cases h
    next nodeRange hnodeRange =>
      obtain ⟨routers, hrouters, h⟩ := bind_eq_ok_iff.mp h
      obtain ⟨mode, hmode, h⟩ := bind_eq_ok_iff.mp h
      obtain ⟨cniNumber, hcniNumber, h⟩ := bind_eq_ok_iff.mp h
      obtain ⟨cniMtu, hcniMtu, h⟩ := bind_eq_ok_iff.mp h
      obtain rfl := Except.ok.inj h
      obtain ⟨hvalue, hne⟩ := Option.filter_eq_some_iff.mp hnodeRange
      exact {
        nodeRange := hvalue
        nodeRange_ne := by simpa using hne
        podRange := rfl
        serviceRange := rfl
        mode := optionalMode_eq_ok_iff.mp hmode
        cniNumber := optionalNumber_eq_ok_iff.mp hcniNumber
        cniMtu := optionalNumber_eq_ok_iff.mp hcniMtu
        routers := ((mapM_eq_ok_iff.mp hrouters).imp fun _ _ => Router.ofEntries_eq_ok_iff.mp).flip }
  · intro h
    have hnodeRange : (Ini.value? doc.general "NodeRange").filter (· ≠ "") = some n.nodeRange :=
      Option.filter_eq_some_iff.mpr ⟨h.nodeRange, by simpa using h.nodeRange_ne⟩
    have hrouters : doc.routers.mapM (fun part => Router.ofEntries part.entries) = .ok n.routers :=
      mapM_eq_ok_iff.mpr (h.routers.flip.imp fun _ _ => Router.ofEntries_eq_ok_iff.mpr)
    rw [Ini.Document.routers] at hrouters
    unfold ofDocument
    rw [hnodeRange]
    simp only [hrouters, optionalMode_eq_ok_iff.mpr h.mode,
      optionalNumber_eq_ok_iff.mpr h.cniNumber, optionalNumber_eq_ok_iff.mpr h.cniMtu,
      ← h.podRange, ← h.serviceRange]
    rfl

theorem mayBeNumber_iff : (∃ number, Ini.Number? entries key number) ↔ Ini.MayBeNumber entries key := by
  unfold Ini.Number? Ini.MayBeNumber
  cases Ini.value? entries key with
  | none => simp [Option.exists]
  | some text => simp [Option.exists]

theorem exists_isReadFrom_iff : (∃ n : Networking, n.IsReadFrom doc) ↔ doc.IsNetworking := by
  constructor
  · rintro ⟨n, h⟩
    refine ⟨⟨_, h.nodeRange, h.nodeRange_ne⟩, fun part hpart hname => ?_, fun text htext => ?_,
      mayBeNumber_iff.mp ⟨_, h.cniNumber⟩, mayBeNumber_iff.mp ⟨_, h.cniMtu⟩⟩
    · obtain ⟨r, -, hr⟩ := exists_of_forall₂ h.routers.flip
        (List.mem_filter.mpr ⟨hpart, by simpa using hname⟩)
      exact Router.exists_isReadFrom_iff.mp ⟨r, hr⟩
    · obtain ⟨mode, -, rfl⟩ := Option.map_eq_some_iff.mp (h.mode.symm.trans htext)
      cases mode
      · exact .inl rfl
      · exact .inr rfl
  · rintro ⟨⟨nodeRange, hnodeRange, hne⟩, hrouters, hmode, hcniNumber, hcniMtu⟩
    obtain ⟨cniNumber, hcniNumber⟩ := mayBeNumber_iff.mpr hcniNumber
    obtain ⟨cniMtu, hcniMtu⟩ := mayBeNumber_iff.mpr hcniMtu
    have hread : ∃ mode : Option Mode, Ini.value? doc.general "WireguardMode" = mode.map Mode.text := by
      cases hvalue : Ini.value? doc.general "WireguardMode" with
      | none => exact ⟨none, rfl⟩
      | some text =>
        rcases hmode text hvalue with rfl | rfl
        · exact ⟨some .selfProvision, rfl⟩
        · exact ⟨some .manual, rfl⟩
    obtain ⟨mode, hmode⟩ := hread
    have hsections : ∀ part ∈ doc.routers, ∃ r : Router, r.IsReadFrom part.entries := by
      intro part hpart
      obtain ⟨hmem, hname⟩ := List.mem_filter.mp hpart
      exact Router.exists_isReadFrom_iff.mpr (hrouters part hmem (by simpa using hname))
    obtain ⟨routers, hrouters⟩ := exists_forall₂_of_forall hsections
    exact ⟨⟨nodeRange, _, _, mode, cniNumber, cniMtu, routers⟩, hnodeRange, hne, rfl, rfl, hmode,
      hcniNumber, hcniMtu, hrouters.flip⟩

theorem ofDocument_congr {other : Ini.Document} (h : doc.AgreesWith other) :
    ofDocument doc = ofDocument other := by
  obtain ⟨hgeneral, hrouters⟩ := h
  simp only [List.forall_mem_cons] at hgeneral
  obtain ⟨hnodeRange, hpodRange, hserviceRange, hmode, hcniNumber, hcniMtu, -⟩ := hgeneral
  have hsections := mapM_congr_of_forall₂ (hrouters.imp fun _ _ => Router.ofEntries_congr)
  simp only [Ini.Document.routers] at hsections
  simp only [ofDocument, optionalMode, optionalNumber, hnodeRange, hpodRange, hserviceRange, hmode,
    hcniNumber, hcniMtu, hsections]

theorem isInvalid_of_optionalMode {e : NetworkingError} (h : optionalMode entries = .error e) :
    e.IsInvalid := by
  unfold optionalMode Mode.ofText at h
  split at h
  next => cases h
  next =>
    split at h
    next => cases h
    next =>
      cases h
      exact ⟨by simp, rfl⟩

theorem isInvalid_of_optionalNumber {e : NetworkingError}
    (h : optionalNumber entries key = .error e) : e.IsInvalid := by
  unfold optionalNumber at h
  split at h
  next => cases h
  next =>
    split at h
    next => cases h
    next =>
      cases h
      exact ⟨by simp, rfl⟩

theorem isInvalid_of_ofDocument {e : NetworkingError} (h : ofDocument doc = .error e) :
    e.IsInvalid := by
  unfold ofDocument at h
  split at h
  next =>
    cases h
    exact ⟨by simp, rfl⟩
  next =>
    rcases bind_eq_error_iff.mp h with h | ⟨routers, -, h⟩
    · obtain ⟨part, -, h⟩ := exists_of_mapM_eq_error h
      exact Router.isInvalid_of_ofEntries h
    rcases bind_eq_error_iff.mp h with h | ⟨mode, -, h⟩
    · exact isInvalid_of_optionalMode h
    rcases bind_eq_error_iff.mp h with h | ⟨cniNumber, -, h⟩
    · exact isInvalid_of_optionalNumber h
    rcases bind_eq_error_iff.mp h with h | ⟨cniMtu, -, h⟩
    · exact isInvalid_of_optionalNumber h
    cases h

theorem ofText_of_document {s : String} (h : Ini.Document.ofText s = .ok doc) :
    ofText s = ofDocument doc := by
  rw [ofText, h]

theorem ofText_eq_ok_iff {s : String} :
    ofText s = .ok n ↔ ∃ doc, Ini.Document.ofText s = .ok doc ∧ n.IsReadFrom doc := by
  cases hdoc : Ini.Document.ofText s with
  | error fault => simp [ofText, hdoc]
  | ok doc => simp [ofText_of_document hdoc, ofDocument_eq_ok_iff]

theorem ofText_error_cases {s : String} {e : NetworkingError} (h : ofText s = .error e) :
    (∃ fault, Ini.Document.ofText s = .error fault ∧ e = .unreadable fault) ∨
      ∃ doc, Ini.Document.ofText s = .ok doc ∧ ¬ doc.IsNetworking ∧ e.IsInvalid := by
  cases hdoc : Ini.Document.ofText s with
  | error fault =>
    rw [ofText, hdoc] at h
    cases h
    exact .inl ⟨fault, rfl, rfl⟩
  | ok doc =>
    rw [ofText_of_document hdoc] at h
    refine .inr ⟨doc, rfl, fun hvalid => ?_, isInvalid_of_ofDocument h⟩
    obtain ⟨n, hn⟩ := exists_isReadFrom_iff.mpr hvalid
    rw [ofDocument_eq_ok_iff.mpr hn] at h
    cases h

/-- Settings are read from exactly those texts whose document has all that they need, and they are
what it says in the first value of each key: nothing else in the text matters. Any other document
makes them invalid. -/
theorem ofText_accepts_exactly (s : String) :
    ((∃ n, ofText s = .ok n) ↔ ∃ doc, Ini.Document.ofText s = .ok doc ∧ doc.IsNetworking) ∧
      (∀ n, ofText s = .ok n ↔ ∃ doc, Ini.Document.ofText s = .ok doc ∧ n.IsReadFrom doc) ∧
      (∀ doc, Ini.Document.ofText s = .ok doc →
        ∀ t other, Ini.Document.ofText t = .ok other → doc.AgreesWith other → ofText t = ofText s) ∧
      ∀ e, ofText s = .error e →
        (∃ fault, Ini.Document.ofText s = .error fault ∧ e = .unreadable fault) ∨
          ∃ doc, Ini.Document.ofText s = .ok doc ∧ ¬ doc.IsNetworking ∧ e.IsInvalid := by
  refine ⟨?_, fun n => ofText_eq_ok_iff, fun doc hdoc t other hother hagrees => ?_,
    fun e he => ofText_error_cases he⟩
  · simp only [ofText_eq_ok_iff, ← exists_isReadFrom_iff]
    constructor
    · rintro ⟨n, doc, hdoc, hn⟩
      exact ⟨doc, hdoc, n, hn⟩
    · rintro ⟨doc, hdoc, n, hn⟩
      exact ⟨n, doc, hdoc, hn⟩
  · rw [ofText_of_document hdoc, ofText_of_document hother, ofDocument_congr hagrees]

example : ofText ("NodeRange = 10.1.0.0/16\nNodeRange = elsewhere\n[Router]\nPublicKey = R\n" ++
    "PublicKey = S\nEndpoint = r:1\nNodePool = 10.1.0.0/24\nPodPool = 10.2.0.0/16\n" ++
    "PodPrefixLen = 24\nPodPrefixLen = none\n") =
      .ok { nodeRange := "10.1.0.0/16", podRange := "", serviceRange := "", mode := none,
            cniNumber := none, cniMtu := none,
            routers := [⟨"R", "r:1", "10.1.0.0/24", "10.2.0.0/16", 24⟩] } := by decide +kernel

end Networking

end TunnelFleet
