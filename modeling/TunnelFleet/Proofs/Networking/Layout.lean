import TunnelFleet.Proofs.Ini.Layout
import TunnelFleet.Proofs.Networking.Reader

namespace TunnelFleet

namespace Ini

theorem value?_append (first second : List (String × String)) (key : String) :
    value? (first ++ second) key = (value? first key).or (value? second key) := by
  rw [value?, List.find?_append, Option.map_or, value?, value?]

theorem value?_cons (entry : String × String) (rest : List (String × String)) (key : String) :
    value? (entry :: rest) key = if entry.1 = key then some entry.2 else value? rest key := by
  rw [value?, List.find?_cons]
  split
  next h => rw [if_pos (beq_iff_eq.mp h)]; rfl
  next h => rw [if_neg (beq_eq_false_iff_ne.mp h), value?]

def present (key : String) (value : Option String) : List (String × String) :=
  value.toList.map fun text => (key, text)

theorem value?_present (key other : String) (value : Option String) :
    value? (present key value) other = if key = other then value else none := by
  cases value with
  | none => simp [present, value?]
  | some text => rw [present, Option.toList_some, List.map_singleton, value?_cons]; rfl

theorem arePlain_cons {entry : String × String} {rest : List (String × String)}
    (h : IsKey entry.1.toList ∧ IsValue entry.2.toList) (hrest : ArePlain rest) :
    ArePlain (entry :: rest) :=
  List.forall_mem_cons.mpr ⟨h, hrest⟩

theorem arePlain_append {first second : List (String × String)} (hfirst : ArePlain first)
    (hsecond : ArePlain second) : ArePlain (first ++ second) :=
  List.forall_mem_append.mpr ⟨hfirst, hsecond⟩

theorem arePlain_present {key : String} {value : Option String} (hkey : IsKey key.toList)
    (hvalue : ∀ text ∈ value, IsValue text.toList) : ArePlain (present key value) := by
  intro entry hentry
  obtain ⟨text, htext, rfl⟩ := List.mem_map.mp hentry
  exact ⟨hkey, hvalue text (Option.mem_toList.mp htext)⟩

end Ini

namespace Decimal

def numeral (n : Nat) : String :=
  String.ofList (Nat.toDigits 10 n)

theorem isBlank_of_isDigit {c : Char} (h : c.isDigit = true) : Text.isBlank c = false := by
  have hrange : 48 ≤ c.toNat ∧ c.toNat ≤ 57 := by
    simpa [Char.isDigit, UInt32.le_iff_toNat_le] using h
  simp [Text.isBlank]
  omega

theorem isValue_numeral (n : Nat) : Ini.IsValue (numeral n).toList := by
  have hdigits : ∀ c ∈ (numeral n).toList, c.isDigit = true := by
    intro c hc
    rw [numeral, String.toList_ofList] at hc
    exact Nat.isDigit_of_mem_toDigits (by decide) (by decide) hc
  have hne {c : Char} (hc : c.isDigit = true) {other : Char} (h : other.isDigit = false) : c ≠ other :=
    fun heq => by rw [heq, h] at hc; cases hc
  refine ⟨⟨fun c hc => ?_, fun c hc => ?_⟩, fun c hc => ?_, fun c hc => ?_⟩
  · exact isBlank_of_isDigit (hdigits c (List.mem_of_mem_head? hc))
  · exact isBlank_of_isDigit (hdigits c (List.mem_of_mem_getLast? hc))
  · have hdigit := hdigits c hc
    exact ⟨hne hdigit (by decide), hne hdigit (by decide), hne hdigit (by decide)⟩
  · have hdigit := hdigits c (List.mem_of_mem_head? hc)
    exact ⟨hne hdigit (by decide), hne hdigit (by decide)⟩

end Decimal

def Router.entries (r : Router) : List (String × String) :=
  [("PublicKey", r.publicKey), ("Endpoint", r.endpoint), ("NodePool", r.nodePool),
    ("PodPool", r.podPool), ("PodPrefixLen", Decimal.numeral r.podLen)]

namespace Networking

def range? (isShown : Bool) (range : String) : Option String :=
  if range = "" ∧ isShown = false then none else some range

def entries (shown : String → Bool) (n : Networking) : List (String × String) :=
  ("NodeRange", n.nodeRange) ::
    (Ini.present "PodRange" (range? (shown "PodRange") n.podRange) ++
      (Ini.present "ServiceRange" (range? (shown "ServiceRange") n.serviceRange) ++
        (Ini.present "WireguardMode" (n.mode.map Mode.text) ++
          (Ini.present "CniNumber" (n.cniNumber.map Decimal.numeral) ++
            Ini.present "CniMtu" (n.cniMtu.map Decimal.numeral)))))

/-- Settings as they are written: the keys that are there, then each router in a section. -/
def document (shown : String → Bool) (n : Networking) : Ini.Document where
  general := n.entries shown
  sections := n.routers.map fun r => ⟨"Router", r.entries⟩

/-- Settings that can be written: there is a range of nodes, numbers are of 32 bits and mask lengths
are lengths, and all texts are read as they stand. -/
structure IsWritable (n : Networking) : Prop where
  nodeRange_ne : n.nodeRange ≠ ""
  ranges : ∀ text ∈ [n.nodeRange, n.podRange, n.serviceRange], Ini.IsValue text.toList
  cniNumber_le : ∀ number ∈ n.cniNumber, number ≤ 4294967295
  cniMtu_le : ∀ number ∈ n.cniMtu, number ≤ 4294967295
  routers : ∀ r ∈ n.routers,
    ∀ text ∈ [r.publicKey, r.endpoint, r.nodePool, r.podPool], Ini.IsValue text.toList
  podLen_le : ∀ r ∈ n.routers, r.podLen ≤ 32

variable {shown : String → Bool} {n : Networking}

theorem range?_getD (isShown : Bool) (range : String) : (range? isShown range).getD "" = range := by
  unfold range?
  split
  next h => exact h.1.symm
  next => rfl

theorem number?_of_numeral {entries : List (String × String)} {key : String} {number : Option Nat}
    (h : Ini.value? entries key = number.map Decimal.numeral)
    (hle : ∀ k ∈ number, k ≤ 4294967295) : Ini.Number? entries key number := by
  rw [Ini.Number?, h]
  cases number with
  | none => exact .none
  | some k => exact .some ⟨Decimal.spells_toDigits k, hle k rfl⟩

theorem isReadFrom_entries {r : Router} (h : r.podLen ≤ 32) : r.IsReadFrom r.entries where
  publicKey := by simp [Router.entries, Ini.value?_cons]
  endpoint := by simp [Router.entries, Ini.value?_cons]
  nodePool := by simp [Router.entries, Ini.value?_cons]
  podPool := by simp [Router.entries, Ini.value?_cons]
  podLen := ⟨Decimal.numeral r.podLen, by simp [Router.entries, Ini.value?_cons],
    Decimal.spells_toDigits r.podLen⟩
  podLen_le := h

theorem routers_document : (n.document shown).routers =
    n.routers.map fun r => ⟨"Router", r.entries⟩ := by
  rw [Ini.Document.routers, document, List.filter_eq_self]
  intro part hpart
  obtain ⟨r, -, rfl⟩ := List.mem_map.mp hpart
  rfl

theorem isReadFrom_document (h : n.IsWritable) : n.IsReadFrom (n.document shown) where
  nodeRange := by simp [document, entries, Ini.value?_cons]
  nodeRange_ne := h.nodeRange_ne
  podRange := by
    simp [document, entries, Ini.value?_cons, Ini.value?_append, Ini.value?_present, range?_getD]
  serviceRange := by
    simp [document, entries, Ini.value?_cons, Ini.value?_append, Ini.value?_present, range?_getD]
  mode := by simp [document, entries, Ini.value?_cons, Ini.value?_append, Ini.value?_present]
  cniNumber := number?_of_numeral
    (by simp [document, entries, Ini.value?_cons, Ini.value?_append, Ini.value?_present])
    h.cniNumber_le
  cniMtu := number?_of_numeral
    (by simp [document, entries, Ini.value?_cons, Ini.value?_append, Ini.value?_present])
    h.cniMtu_le
  routers := by
    rw [routers_document, List.forall₂_map_right_iff, List.forall₂_same]
    exact fun r hr => isReadFrom_entries (h.podLen_le r hr)

theorem isKey_of_mem : ∀ key ∈ ["NodeRange", "PodRange", "ServiceRange", "WireguardMode", "CniNumber",
    "CniMtu", "PublicKey", "Endpoint", "NodePool", "PodPool", "PodPrefixLen"],
    Ini.IsKey key.toList := by
  decide

theorem isValue_text (mode : Mode) : Ini.IsValue mode.text.toList := by
  cases mode <;> decide

theorem isName_router : Ini.IsName "Router".toList := by
  decide

theorem isValue_of_range? {isShown : Bool} {range : String} (h : Ini.IsValue range.toList) :
    ∀ text ∈ range? isShown range, Ini.IsValue text.toList := by
  intro text htext
  obtain ⟨-, rfl⟩ : _ ∧ range = text := by simpa [range?] using htext
  exact h

theorem arePlain_entries {r : Router}
    (h : ∀ text ∈ [r.publicKey, r.endpoint, r.nodePool, r.podPool], Ini.IsValue text.toList) :
    Ini.ArePlain r.entries := by
  simp only [List.forall_mem_cons] at h
  obtain ⟨hpublicKey, hendpoint, hnodePool, hpodPool, -⟩ := h
  simp only [Ini.ArePlain, Router.entries, List.forall_mem_cons]
  exact ⟨⟨isKey_of_mem _ (by simp), hpublicKey⟩, ⟨isKey_of_mem _ (by simp), hendpoint⟩,
    ⟨isKey_of_mem _ (by simp), hnodePool⟩, ⟨isKey_of_mem _ (by simp), hpodPool⟩,
    ⟨isKey_of_mem _ (by simp), Decimal.isValue_numeral r.podLen⟩, nofun⟩

theorem isPlain_document (h : n.IsWritable) : (n.document shown).IsPlain where
  general := by
    have hranges := h.ranges
    simp only [List.forall_mem_cons] at hranges
    obtain ⟨hnodeRange, hpodRange, hserviceRange, -⟩ := hranges
    have hnumeral {number : Option Nat} :
        ∀ text ∈ number.map Decimal.numeral, Ini.IsValue text.toList := by
      intro text htext
      obtain ⟨k, -, rfl⟩ := Option.map_eq_some_iff.mp htext
      exact Decimal.isValue_numeral k
    refine Ini.arePlain_cons ⟨isKey_of_mem _ (by simp), hnodeRange⟩ ?_
    refine Ini.arePlain_append (Ini.arePlain_present (isKey_of_mem _ (by simp)) ?_) ?_
    · exact isValue_of_range? hpodRange
    refine Ini.arePlain_append (Ini.arePlain_present (isKey_of_mem _ (by simp)) ?_) ?_
    · exact isValue_of_range? hserviceRange
    refine Ini.arePlain_append (Ini.arePlain_present (isKey_of_mem _ (by simp)) ?_) ?_
    · intro text htext
      obtain ⟨mode, -, rfl⟩ := Option.map_eq_some_iff.mp htext
      exact isValue_text mode
    exact Ini.arePlain_append (Ini.arePlain_present (isKey_of_mem _ (by simp)) hnumeral)
      (Ini.arePlain_present (isKey_of_mem _ (by simp)) hnumeral)
  sections := by
    intro part hpart
    obtain ⟨r, hr, rfl⟩ := List.mem_map.mp hpart
    exact ⟨isName_router, arePlain_entries (h.routers r hr)⟩

theorem ofText_document (shown : String → Bool) {n : Networking} (h : n.IsWritable) :
    ofText (n.document shown).text = .ok n :=
  ofText_eq_ok_iff.mpr ⟨_, Ini.Document.ofText_text (isPlain_document h), isReadFrom_document h⟩

/-- Signs of the format stand inside the values, a field of a router is empty, and one empty range has
a line. -/
theorem ofText_document_of_signs :
    let first : Router := ⟨"routerA=", "[2001:db8::1]:51820", "10.1.0.0/24 # first", "a=b;c", 24⟩
    let second : Router := ⟨"#=[Router]", "", "x 'y' \"z", "PodPool = 10.2.0.0/17", 0⟩
    let n : Networking := ⟨"[10.1.0.0/16]", "", "", some .manual, none, some 1420, [first, second]⟩
    n.IsWritable ∧
      ofText "NodeRange = [10.1.0.0/16]
ServiceRange = 
WireguardMode = Manual
CniMtu = 1420

[Router]
PublicKey = routerA=
Endpoint = [2001:db8::1]:51820
NodePool = 10.1.0.0/24 # first
PodPool = a=b;c
PodPrefixLen = 24

[Router]
PublicKey = #=[Router]
Endpoint = 
NodePool = x 'y' \"z
PodPool = PodPool = 10.2.0.0/17
PodPrefixLen = 0
" = .ok n := by
  intro first second n
  have h : n.IsWritable :=
    ⟨by decide, by decide, by decide, by decide, by decide, by decide⟩
  exact ⟨h, (congrArg ofText (by decide +kernel)).trans (ofText_document (· == "ServiceRange") h)⟩

end Networking

end TunnelFleet
