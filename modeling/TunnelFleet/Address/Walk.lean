import TunnelFleet.Address.Block

namespace TunnelFleet

/-- A walk through a pool over blocks of one length. `cursor` is the address of the block passed
last, at first the pool's own, and none once the walk has ended. -/
structure Walk where
  pool : Block
  len : Nat
  len_le : len ≤ 32
  cursor : Option Nat

namespace Walk

/-- Mask lengths above 32 count as 32. -/
def start (pool : Block) (len : Nat) : Walk where
  pool := pool
  len := min len 32
  len_le := Nat.min_le_right _ _
  cursor := some pool.address.val

/-- Whether a block may be handed out of a pool: it is no wider, begins inside, and leaves the
pool's last address alone. -/
def inBounds (pool candidate : Block) : Bool :=
  pool.len ≤ candidate.len && pool.contains candidate.address &&
    !candidate.contains pool.broadcast

def candidate? (w : Walk) (position : Nat) : Option Block :=
  if h : position + span w.len ≤ topAddress then
    let candidate : Block := ⟨⟨position + span w.len, Nat.lt_succ_of_le h⟩, w.len, w.len_le⟩
    if inBounds w.pool candidate then some candidate else none
  else none

/-- One step. The first block out of bounds ends the walk for good. -/
def next (w : Walk) : Option Block × Walk :=
  match w.cursor.bind w.candidate? with
  | some block => (some block, { w with cursor := some block.address.val })
  | none => (none, { w with cursor := none })

def room (w : Walk) : Nat :=
  match w.cursor with
  | some position => 4294967296 - position
  | none => 0

theorem candidate?_address {w : Walk} {position : Nat} {block : Block}
    (h : w.candidate? position = some block) :
    block.address.val = position + span w.len ∧ block.len = w.len := by
  unfold candidate? at h
  split at h
  next =>
    simp only [Option.ite_none_right_eq_some, Option.some.injEq] at h
    obtain ⟨_, rfl⟩ := h
    exact ⟨rfl, rfl⟩
  next => cases h

theorem room_next_lt {w after : Walk} {block : Block} (h : w.next = (some block, after)) :
    after.room < w.room := by
  unfold next at h
  cases hc : w.cursor with
  | none => simp [hc] at h
  | some position =>
    cases hb : w.candidate? position with
    | none => simp [hc, hb] at h
    | some found =>
      simp only [hc, Option.bind_some, hb, Prod.mk.injEq, Option.some.injEq] at h
      obtain ⟨rfl, rfl⟩ := h
      have ha := (candidate?_address hb).1
      have hlt := found.address.lt
      have hpos := span_pos w.len
      simp only [room, hc]
      omega

def find? (wanted : Block → Bool) (w : Walk) : Option Block :=
  match _h : w.next with
  | (none, _) => none
  | (some block, after) => if wanted block then some block else after.find? wanted
termination_by w.room
decreasing_by exact room_next_lt _h

def take : Nat → Walk → List Block × Walk
  | 0, w => ([], w)
  | n + 1, w =>
      match w.next with
      | (none, after) => ([], after)
      | (some block, after) =>
          let (blocks, rest) := after.take n
          (block :: blocks, rest)

end Walk

end TunnelFleet
