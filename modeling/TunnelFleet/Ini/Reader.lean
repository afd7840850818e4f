import TunnelFleet.Ini.Basic
import TunnelFleet.Text.Basic

namespace TunnelFleet.Ini

namespace Cursor

def arrive (line col : Nat) (rest : List Char) : Cursor :=
  match rest with
  | [] => ⟨[], line, col⟩
  | c :: cs => if c = '\n' then ⟨c :: cs, line + 1, 0⟩ else ⟨c :: cs, line, col + 1⟩

def ofText (s : String) : Cursor :=
  arrive 0 0 s.toList

def step (c : Cursor) : Cursor :=
  match c.rest with
  | [] => c
  | _ :: cs => arrive c.line c.col cs

def advance : Nat → Cursor → Cursor
  | 0, c => c
  | n + 1, c => advance n c.step

theorem rest_arrive (line col : Nat) (rest : List Char) : (arrive line col rest).rest = rest := by
  cases rest with
  | nil => rfl
  | cons c cs => simp only [arrive]; split <;> rfl

theorem rest_step (c : Cursor) : c.step.rest = c.rest.tail := by
  unfold step
  split
  next h => simp [h]
  next h => rw [rest_arrive, h, List.tail_cons]

theorem rest_advance (n : Nat) (c : Cursor) : (advance n c).rest = c.rest.drop n := by
  induction n generalizing c with
  | zero => simp [advance]
  | succ n ih => rw [advance, ih, rest_step, List.drop_tail]

theorem length_step_le (c : Cursor) : c.step.rest.length ≤ c.rest.length := by
  rw [rest_step, List.length_tail]
  omega

theorem length_step_lt {c : Cursor} {ch : Char} {cs : List Char} (h : c.rest = ch :: cs) :
    c.step.rest.length < c.rest.length := by
  rw [rest_step, h, List.tail_cons, List.length_cons]
  omega

theorem length_advance_le (n : Nat) (c : Cursor) :
    (advance n c).rest.length ≤ c.rest.length := by
  rw [rest_advance, List.length_drop]
  omega

theorem length_advance_lt {n : Nat} {c : Cursor} {ch : Char} {cs : List Char} (hn : 0 < n)
    (h : c.rest = ch :: cs) : (advance n c).rest.length < c.rest.length := by
  rw [rest_advance, List.length_drop, h, List.length_cons]
  omega

def skipWhile (skipped : Char → Bool) (c : Cursor) : Cursor :=
  advance (c.rest.takeWhile skipped).length c

def skipLine (c : Cursor) : Cursor :=
  advance ((c.rest.takeWhile (· != '\n')).length + 1) c

end Cursor

def isSpace (c : Char) : Bool :=
  c == ' ' || c == '\t'

def isLineEnd (c : Char) : Bool :=
  c == '\n' || c == '\r'

/-- How much white space lies between two items. A line that begins with a space or a tab is left
for the next item. -/
def gap : List Char → Nat
  | [] => 0
  | c :: cs =>
      if Text.isBlank c then
        if isLineEnd c && (cs.head?.any isSpace) then 1 else gap cs + 1
      else 0

def Cursor.skipGap (c : Cursor) : Cursor :=
  advance (gap c.rest) c

/-- What stands for itself after a backslash is everything but these. -/
def shortEscape? (c : Char) : Option Char :=
  if c = '0' then some (Char.ofNat 0)
  else if c = 'a' then some (Char.ofNat 7)
  else if c = 'b' then some (Char.ofNat 8)
  else if c = 't' then some '\t'
  else if c = 'r' then some '\r'
  else if c = 'n' then some '\n'
  else none

def reached {α : Type} : Except Fault (α × Cursor) → Cursor
  | .ok (_, c) => c
  | .error fault => fault.place

/-- One character of a code. A backslash counts as one and must stand before a line feed. -/
def codeDigit (stops : List (Option Char)) (c : Cursor) : Except Fault (Char × Cursor) :=
  match c.step.rest with
  | [] => .error ⟨.unended stops, c.step⟩
  | ch :: rest =>
      if ch ≠ '\\' then .ok (ch, c.step)
      else if rest.head? = some '\n' then .ok (ch, c.step.step)
      else .error ⟨.brokenCode rest.head?, c.step.step⟩

def code (stops : List (Option Char)) : Nat → Cursor → Except Fault (List Char × Cursor)
  | 0, c => .ok ([], c)
  | n + 1, c =>
      match codeDigit stops c with
      | .error fault => .error fault
      | .ok (digit, after) =>
          match code stops n after with
          | .error fault => .error fault
          | .ok (digits, last) => .ok (digit :: digits, last)

def hexValue? (c : Char) : Option Nat :=
  if '0' ≤ c ∧ c ≤ '9' then some (c.toNat - '0'.toNat)
  else if 'a' ≤ c ∧ c ≤ 'f' then some (c.toNat - 'a'.toNat + 10)
  else if 'A' ≤ c ∧ c ≤ 'F' then some (c.toNat - 'A'.toNat + 10)
  else none

/-- The character of a hexadecimal code; a plus sign may stand before it. -/
def codeChar? (cs : List Char) : Option Char := do
  let digits := match cs with
    | '+' :: rest => rest
    | rest => rest
  let values ← digits.mapM hexValue?
  let number := values.foldl (fun n d => 16 * n + d) 0
  if h : number.isValidChar then some (Char.ofNatAux number h) else none

def escape (stops : List (Option Char)) (c : Cursor) : Except Fault (List Char × Cursor) :=
  let c := c.step
  match c.rest with
  | [] => .ok (['\\'], c)
  | ch :: _ =>
      if ch = '\n' then .ok ([], c.step)
      else if ch = 'x' then
        match code stops 4 c with
        | .error fault => .error fault
        | .ok (digits, last) =>
            match codeChar? digits with
            | some found => .ok ([found], last.step)
            | none => .error ⟨.badCode, last⟩
      else .ok ([(shortEscape? ch).getD ch], c.step)

theorem length_codeDigit (stops : List (Option Char)) (c : Cursor) :
    (reached (codeDigit stops c)).rest.length ≤ c.rest.length := by
  have hstep := c.length_step_le
  have htwo := c.step.length_step_le
  unfold codeDigit
  split
  · exact hstep
  · split
    · exact hstep
    · split <;> exact Nat.le_trans htwo hstep

theorem length_code (stops : List (Option Char)) (n : Nat) (c : Cursor) :
    (reached (code stops n c)).rest.length ≤ c.rest.length := by
  induction n generalizing c with
  | zero => exact Nat.le_refl _
  | succ n ih =>
    have hdigit := length_codeDigit stops c
    unfold code
    split
    next fault heq => rwa [heq] at hdigit
    next digit after heq =>
      rw [heq] at hdigit
      have hrest := ih after
      split
      next fault hcode =>
        rw [hcode] at hrest
        exact Nat.le_trans hrest hdigit
      next digits last hcode =>
        rw [hcode] at hrest
        exact Nat.le_trans hrest hdigit

theorem length_escape (stops : List (Option Char)) (c : Cursor) :
    (reached (escape stops c)).rest.length ≤ c.step.rest.length := by
  have hcode := length_code stops 4 c.step
  unfold escape
  simp only
  split
  next => exact Nat.le_refl _
  next =>
    split
    next => exact c.step.length_step_le
    next =>
      split
      next =>
        split
        next fault heq => rwa [heq] at hcode
        next digits last heq =>
          rw [heq] at hcode
          split
          next => exact Nat.le_trans last.length_step_le hcode
          next => exact hcode
      next => exact c.step.length_step_le

/-- Takes the characters before the first stop, with what escapes stand for. -/
def readUntil (stops : List (Option Char)) (taken : List Char) (c : Cursor) :
    Except Fault (List Char × Cursor) :=
  match _hrest : c.rest with
  | [] => if none ∈ stops then .ok (taken.reverse, c) else .error ⟨.unended stops, c⟩
  | ch :: _ =>
      if some ch ∈ stops then .ok (taken.reverse, c)
      else if ch = '\\' then
        match _hescape : escape stops c with
        | .error fault => .error fault
        | .ok (meant, after) => readUntil stops (meant.reverse ++ taken) after
      else readUntil stops (ch :: taken) c.step
termination_by c.rest.length
decreasing_by
  · have hle := length_escape stops c
    rw [_hescape] at hle
    exact Nat.lt_of_le_of_lt hle (Cursor.length_step_lt _hrest)
  · exact Cursor.length_step_lt _hrest

theorem length_readUntil (stops : List (Option Char)) (taken : List Char) (c : Cursor) :
    (reached (readUntil stops taken c)).rest.length ≤ c.rest.length := by
  fun_induction readUntil stops taken c with
  | case1 => exact Nat.le_refl _
  | case2 => exact Nat.le_refl _
  | case3 => exact Nat.le_refl _
  | case4 taken c _ fault hescape =>
    have hle := length_escape stops c
    rw [hescape] at hle
    exact Nat.le_trans hle c.length_step_le
  | case5 taken c _ meant after hescape _ _ ih =>
    have hle := length_escape stops c
    rw [hescape] at hle
    exact Nat.le_trans ih (Nat.le_trans hle c.length_step_le)
  | case6 taken c _ _ _ _ _ ih => exact Nat.le_trans ih c.length_step_le

theorem readUntil_length_lt {stops : List (Option Char)} {c after : Cursor} {ch : Char}
    {cs taken found : List Char} (hrest : c.rest = ch :: cs) (hstop : some ch ∉ stops)
    (h : readUntil stops taken c = .ok (found, after)) :
    after.rest.length < c.rest.length := by
  have hlt := Cursor.length_step_lt hrest
  rw [readUntil.eq_def] at h
  split at h
  next hnil => simp [hrest] at hnil
  next ch' cs' hrest' =>
    rw [hrest] at hrest'
    obtain ⟨rfl, rfl⟩ := List.cons.inj hrest'
    rw [if_neg hstop] at h
    split at h
    · split at h
      next => cases h
      next meant last hescape =>
        have hle := length_escape stops c
        rw [hescape] at hle
        have hread := length_readUntil stops (meant.reverse ++ taken) last
        rw [h] at hread
        exact Nat.lt_of_le_of_lt (Nat.le_trans hread hle) hlt
    · have hread := length_readUntil stops (ch :: taken) c.step
      rw [h] at hread
      exact Nat.lt_of_le_of_lt hread hlt

def keyStops : List (Option Char) :=
  [some '=', some ':']

def lineStops : List (Option Char) :=
  [some '\n', some '\r', none]

/-- The pieces of a value: quoted ones, then the rest of the line. White space is cut at the end of
the rest, and before it when nothing was quoted. -/
def pieces (first : Bool) (taken : List Char) (c : Cursor) : Except Fault (List Char × Cursor) :=
  match _hrest : c.rest with
  | [] => .ok (taken, c)
  | ch :: _ =>
      if ch = '"' ∨ ch = '\'' then
        match _hread : readUntil [some ch] [] c.step with
        | .error fault => .error fault
        | .ok (found, after) => pieces false (taken ++ found) after.step
      else
        match readUntil lineStops [] c with
        | .error fault => .error fault
        | .ok (found, after) =>
            .ok (taken ++ if first then Text.trim found else Text.trimRight found, after)
termination_by c.rest.length
decreasing_by
  have hread := length_readUntil [some ch] [] c.step
  rw [_hread] at hread
  exact Nat.lt_of_le_of_lt (Nat.le_trans after.length_step_le hread)
    (Cursor.length_step_lt _hrest)

theorem length_pieces (first : Bool) (taken : List Char) (c : Cursor) :
    (reached (pieces first taken c)).rest.length ≤ c.rest.length := by
  fun_induction pieces first taken c with
  | case1 => exact Nat.le_refl _
  | case2 first taken c ch _ _ _ fault hread =>
    have hle := length_readUntil [some ch] [] c.step
    rw [hread] at hle
    exact Nat.le_trans hle c.length_step_le
  | case3 first taken c ch _ _ _ quoted last hread ih =>
    have hle := length_readUntil [some ch] [] c.step
    rw [hread] at hle
    exact Nat.le_trans ih (Nat.le_trans last.length_step_le (Nat.le_trans hle c.length_step_le))
  | case4 first taken c _ _ _ _ fault hread =>
    have hle := length_readUntil lineStops [] c
    rwa [hread] at hle
  | case5 first taken c _ _ _ _ line last hread =>
    have hle := length_readUntil lineStops [] c
    rwa [hread] at hle

def value (c : Cursor) : Except Fault (List Char × Cursor) :=
  pieces true [] (c.step.skipWhile fun ch => Text.isBlank ch && !isLineEnd ch)

def header (c : Cursor) : Except Fault (List Char × Cursor) :=
  match readUntil [some ']'] [] c.step with
  | .error fault => .error fault
  | .ok (name, after) => .ok (Text.trim name, after.step)

theorem length_value {c after : Cursor} {ch : Char} {cs found : List Char}
    (hrest : c.rest = ch :: cs) (h : value c = .ok (found, after)) :
    after.rest.length < c.rest.length := by
  have hlt := Cursor.length_step_lt hrest
  have hskip := Cursor.length_advance_le
    (c.step.rest.takeWhile fun ch => Text.isBlank ch && !isLineEnd ch).length c.step
  have hle := length_pieces true []
    (c.step.skipWhile fun ch => Text.isBlank ch && !isLineEnd ch)
  rw [value] at h
  rw [h] at hle
  exact Nat.lt_of_le_of_lt (Nat.le_trans hle hskip) hlt

theorem length_header {c after : Cursor} {ch : Char} {cs found : List Char}
    (hrest : c.rest = ch :: cs) (h : header c = .ok (found, after)) :
    after.rest.length < c.rest.length := by
  have hlt := Cursor.length_step_lt hrest
  have hread := length_readUntil [some ']'] [] c.step
  unfold header at h
  split at h
  next => cases h
  next name last heq =>
    rw [heq] at hread
    simp only [Except.ok.injEq, Prod.mk.injEq] at h
    obtain ⟨_, rfl⟩ := h
    exact Nat.lt_of_le_of_lt (Nat.le_trans last.length_step_le hread) hlt

/-- One turn of the reader: the item that was completed, if any, the key that waits for a value,
and where to go on. -/
structure Turn where
  item : Option Item
  key : List Char
  after : Cursor

def headerTurn (key : List Char) (c : Cursor) : Except Fault Turn :=
  match header c with
  | .error fault => .error fault
  | .ok (name, after) => .ok ⟨some (.header (String.ofList name)), key, after.skipGap⟩

def keyTurn (c : Cursor) : Except Fault Turn :=
  match readUntil keyStops [] c with
  | .error fault => .error fault
  | .ok (key, after) => .ok ⟨none, Text.trim key, after.skipGap⟩

/-- A line that begins with white space. A key on it that cannot be read is passed over. -/
def indentedTurn (key : List Char) (c : Cursor) : Except Fault Turn :=
  match c.rest with
  | [] => .ok ⟨none, key, c⟩
  | ch :: _ =>
      if ch = '[' then headerTurn key c
      else if isLineEnd ch then .ok ⟨none, key, c.step⟩
      else
        match readUntil keyStops [] c with
        | .error fault => .ok ⟨none, key, fault.place.skipGap⟩
        | .ok (found, after) => .ok ⟨none, Text.trim found, after.skipGap⟩

/-- A comment may begin only in the first column. -/
def turn (key : List Char) (ch : Char) (c : Cursor) : Except Fault Turn :=
  if ch = ';' ∨ ch = '#' then
    if 1 < c.col then .error ⟨.inlineComment, c⟩ else .ok ⟨none, key, c.skipLine.skipGap⟩
  else if ch = '[' then headerTurn key c
  else if ch = '=' ∨ ch = ':' then
    if key = [] then .error ⟨.missingKey, c⟩
    else
      match value c with
      | .error fault => .error fault
      | .ok (found, after) =>
          .ok ⟨some (.entry (String.ofList key) (String.ofList found)), [], after.skipGap⟩
  else if isSpace ch then indentedTurn key (c.skipWhile isSpace)
  else if isLineEnd ch then .ok ⟨none, key, c.step.skipGap⟩
  else keyTurn c

theorem headerTurn_length_lt {key cs : List Char} {ch : Char} {c : Cursor} {t : Turn}
    (hrest : c.rest = ch :: cs) (h : headerTurn key c = .ok t) :
    t.after.rest.length < c.rest.length := by
  unfold headerTurn at h
  split at h
  next => cases h
  next name reached heq =>
    cases h
    have hlt := length_header hrest heq
    have hgap := reached.length_advance_le (gap reached.rest)
    simp only [Cursor.skipGap]
    omega

theorem indentedTurn_length_le {key : List Char} {c : Cursor} {t : Turn}
    (h : indentedTurn key c = .ok t) : t.after.rest.length ≤ c.rest.length := by
  unfold indentedTurn at h
  split at h
  next =>
    cases h
    exact Nat.le_refl _
  next ch cs hrest =>
    split at h
    next => exact Nat.le_of_lt (headerTurn_length_lt hrest h)
    next =>
      split at h
      next =>
        cases h
        exact c.length_step_le
      next =>
        have hread := length_readUntil keyStops [] c
        split at h
        next fault heq =>
          rw [heq] at hread
          cases h
          exact Nat.le_trans (Cursor.length_advance_le _ _) hread
        next found reached heq =>
          rw [heq] at hread
          cases h
          exact Nat.le_trans (Cursor.length_advance_le _ _) hread

theorem turn_length_lt {key cs : List Char} {ch : Char} {c : Cursor} {t : Turn}
    (hrest : c.rest = ch :: cs) (h : turn key ch c = .ok t) :
    t.after.rest.length < c.rest.length := by
  have hstep := Cursor.length_step_lt hrest
  unfold turn at h
  split at h
  next =>
    split at h
    next => cases h
    next =>
      cases h
      have hline : c.skipLine.rest.length < c.rest.length :=
        Cursor.length_advance_lt (Nat.succ_pos _) hrest
      exact Nat.lt_of_le_of_lt (Cursor.length_advance_le _ _) hline
  next =>
    split at h
    next => exact headerTurn_length_lt hrest h
    next =>
      split at h
      next =>
        split at h
        next => cases h
        next =>
          split at h
          next => cases h
          next found reached heq =>
            cases h
            exact Nat.lt_of_le_of_lt (Cursor.length_advance_le _ _) (length_value hrest heq)
      next hmark =>
        split at h
        next hspace =>
          have hskip : (c.skipWhile isSpace).rest.length < c.rest.length := by
            refine Cursor.length_advance_lt ?_ hrest
            simp [hrest, hspace]
          exact Nat.lt_of_le_of_lt (indentedTurn_length_le h) hskip
        next =>
          split at h
          next =>
            cases h
            exact Nat.lt_of_le_of_lt (Cursor.length_advance_le _ _) hstep
          next =>
            unfold keyTurn at h
            split at h
            next => cases h
            next found reached heq =>
              cases h
              have hlt := readUntil_length_lt hrest (by simpa [keyStops] using hmark) heq
              exact Nat.lt_of_le_of_lt (Cursor.length_advance_le _ _) hlt

def itemsFrom (key : List Char) (c : Cursor) : Except Fault (List Item) :=
  match _hrest : c.rest with
  | [] => .ok []
  | ch :: _ =>
      match _hturn : turn key ch c with
      | .error fault => .error fault
      | .ok t =>
          match itemsFrom t.key t.after with
          | .error fault => .error fault
          | .ok items => .ok (t.item.toList ++ items)
termination_by c.rest.length
decreasing_by exact turn_length_lt _hrest _hturn

def items (s : String) : Except Fault (List Item) :=
  itemsFrom [] (.ofText s)

def Document.ofText (s : String) : Except Fault Document :=
  (items s).map Document.ofItems

end TunnelFleet.Ini
