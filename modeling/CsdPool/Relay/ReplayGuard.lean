/-
# Relay.ReplayGuard — which acknowledgements were seen

A bounded map from tokens to their expiry and a queue of its keys.  `insert` first
drops what has expired, then refuses a token it holds, then refuses any token when
it is full; it never makes room by dropping a token that is still valid.

Queue and map list the same tokens in the same order (`Aligned`), so dropping the
expired ones is one filter of the map (`dropExpired_aligned`) and everything
`insert` does is `insert_cases`.
-/
import CsdPool.Relay.Announcement
import CsdPool.Theory.Table

namespace CsdPool.Relay

open Theory (Keyed Table)

set_option autoImplicit false

def maxReplayTokens : Nat := 1024

inductive VerifyError
  | wrongProtocol
  | wrongMode
  | wrongDirection
  | wrongCorrelation
  | wrongGeneration
  | wrongContent
  | wrongNonce
  | expired
  | notApplicationAccepted
  | badSignature
  | replay
  | replayGuardFull
  deriving DecidableEq, Repr

/-- An entry of the map. -/
structure SeenToken where
  token : Hash32
  expiresUnixMs : UInt64
  deriving DecidableEq

instance instKeyedSeenToken : Keyed SeenToken Hash32 := ⟨SeenToken.token⟩

structure ReplayGuard where
  seen : Table SeenToken
  order : List Hash32

namespace ReplayGuard

/-- `ReplayGuard::default()`. -/
def empty : ReplayGuard := ⟨.empty, []⟩

def live (now : UInt64) (entry : SeenToken) : Bool := decide (now ≤ entry.expiresUnixMs)

/-- The loop that pops the whole queue: the tokens that stay, and the map. -/
def dropExpired (now : UInt64) :
    List Hash32 → Table SeenToken → List Hash32 × Table SeenToken
  | [], seen => ([], seen)
  | existing :: rest, seen =>
      if (seen.find? existing).any (live now) then
        let (active, seen) := dropExpired now rest seen
        (existing :: active, seen)
      else dropExpired now rest (seen.erase existing)

def insert (replayGuard : ReplayGuard) (token : Hash32) (expiresUnixMs nowUnixMs : UInt64) :
    Except VerifyError Unit × ReplayGuard :=
  let (order, seen) := dropExpired nowUnixMs replayGuard.order replayGuard.seen
  if seen.contains token then (.error .replay, ⟨seen, order⟩)
  else if maxReplayTokens ≤ seen.rows.length then (.error .replayGuardFull, ⟨seen, order⟩)
  else (.ok (), ⟨seen.put ⟨token, expiresUnixMs⟩, order ++ [token]⟩)

/-! ## Map and queue -/

/-- The queue is the list of the map's keys. -/
def Aligned (replayGuard : ReplayGuard) : Prop :=
  replayGuard.seen.rows.map SeenToken.token = replayGuard.order

theorem aligned_empty : empty.Aligned := rfl

theorem Aligned.nodup {replayGuard : ReplayGuard} (aligned : replayGuard.Aligned) :
    replayGuard.order.Nodup :=
  aligned ▸ replayGuard.seen.unique

theorem Aligned.mem_iff {replayGuard : ReplayGuard} (aligned : replayGuard.Aligned)
    (token : Hash32) : token ∈ replayGuard.order ↔ replayGuard.seen.contains token = true := by
  rw [← aligned, List.mem_map, Table.contains_iff]
  rfl

/-- What the loop leaves in the map: whatever the queue does not name, and the
entries that are not expired. -/
theorem dropExpired_rows (now : UInt64) (order : List Hash32) (seen : Table SeenToken) :
    (dropExpired now order seen).2.rows =
      seen.rows.filter fun entry => decide (entry.token ∉ order) || live now entry := by
  induction order generalizing seen with
  | nil => simp [dropExpired]
  | cons existing rest ih =>
      simp only [dropExpired]
      by_cases alive : (seen.find? existing).any (live now) = true
      · rw [if_pos alive]
        refine (ih seen).trans (List.filter_congr fun entry member => ?_)
        by_cases same : entry.token = existing
        · have found : seen.find? existing = some entry :=
            Table.find?_eq_some_iff.2 ⟨member, same⟩
          rw [found] at alive
          have keeps : live now entry = true := alive
          simp [keeps]
        · simp [same]
      · rw [if_neg alive, ih]
        show (seen.rows.filter fun entry => entry.token ≠ existing).filter _ = _
        rw [List.filter_filter]
        refine List.filter_congr fun entry member => ?_
        by_cases same : entry.token = existing
        · have found : seen.find? existing = some entry :=
            Table.find?_eq_some_iff.2 ⟨member, same⟩
          rw [found] at alive
          have dead : live now entry = false := by simpa using alive
          simp [same, dead]
        · simp [same]

theorem dropExpired_order {now : UInt64} {order : List Hash32} (nodup : order.Nodup)
    (seen : Table SeenToken) :
    (dropExpired now order seen).1 =
      order.filter fun token => (seen.find? token).any (live now) := by
  induction order generalizing seen with
  | nil => rfl
  | cons existing rest ih =>
      rw [List.nodup_cons] at nodup
      simp only [dropExpired]
      by_cases alive : (seen.find? existing).any (live now) = true
      · rw [if_pos alive, List.filter_cons, if_pos alive]
        exact congrArg _ (ih nodup.2 seen)
      · rw [if_neg alive, List.filter_cons, if_neg alive, ih nodup.2]
        refine List.filter_congr fun token member => ?_
        have other : token ≠ existing := fun same => nodup.1 (same ▸ member)
        rw [Table.find?_erase, if_neg other]

/-- On aligned guards the loop is a filter of the map. -/
theorem dropExpired_aligned (now : UInt64) {replayGuard : ReplayGuard}
    (aligned : replayGuard.Aligned) :
    dropExpired now replayGuard.order replayGuard.seen =
      ((replayGuard.seen.rows.filter (live now)).map SeenToken.token,
        replayGuard.seen.filter (live now)) := by
  have rows : (dropExpired now replayGuard.order replayGuard.seen).2 =
      replayGuard.seen.filter (live now) := by
    refine Table.ext ((dropExpired_rows now _ _).trans ?_)
    refine List.filter_congr fun entry member => ?_
    have queued : entry.token ∈ replayGuard.order :=
      aligned ▸ List.mem_map_of_mem member
    simp [queued]
  refine Prod.ext ?_ rows
  rw [dropExpired_order aligned.nodup, ← aligned, List.filter_map]
  refine congrArg _ (List.filter_congr fun entry member => ?_)
  have found : replayGuard.seen.find? entry.token = some entry := Table.find?_of_mem member
  simp [found]

/-- The guard without its expired entries. -/
def pruned (now : UInt64) (replayGuard : ReplayGuard) : ReplayGuard :=
  ⟨replayGuard.seen.filter (live now), (replayGuard.seen.rows.filter (live now)).map
    SeenToken.token⟩

theorem pruned_aligned (now : UInt64) (replayGuard : ReplayGuard) :
    (replayGuard.pruned now).Aligned := rfl

theorem find?_pruned (now : UInt64) (replayGuard : ReplayGuard) (token : Hash32) :
    (replayGuard.pruned now).seen.find? token =
      (replayGuard.seen.find? token).filter (live now) :=
  Table.find?_filter ..

/-- **The three outcomes.** -/
theorem insert_cases {replayGuard : ReplayGuard} (aligned : replayGuard.Aligned) (token : Hash32)
    (expires now : UInt64) :
    (replayGuard.insert token expires now = (.error .replay, replayGuard.pruned now) ∧
      (replayGuard.pruned now).seen.find? token ≠ none) ∨
    (replayGuard.insert token expires now = (.error .replayGuardFull, replayGuard.pruned now)) ∨
    ((replayGuard.pruned now).seen.find? token = none ∧
      (replayGuard.pruned now).order.length < maxReplayTokens ∧
      replayGuard.insert token expires now =
        (.ok (), ⟨((replayGuard.pruned now).seen.insert ⟨token, expires⟩).1,
          (replayGuard.pruned now).order ++ [token]⟩)) := by
  unfold insert
  rw [dropExpired_aligned now aligned]
  dsimp only
  by_cases held : (replayGuard.seen.filter (live now)).contains token = true
  · rw [if_pos held]
    rw [Table.contains_eq_isSome] at held
    exact .inl ⟨rfl, Option.isSome_iff_ne_none.1 held⟩
  · rw [if_neg held]
    have fresh : (replayGuard.pruned now).seen.find? token = none := by
      rw [Table.contains_eq_isSome] at held
      simpa [pruned] using held
    by_cases room : maxReplayTokens ≤ (replayGuard.seen.filter (live now)).rows.length
    · rw [if_pos room]
      exact .inr (.inl rfl)
    · rw [if_neg room]
      refine .inr (.inr ⟨fresh, ?_, ?_⟩)
      · show ((replayGuard.seen.rows.filter (live now)).map SeenToken.token).length < _
        rw [List.length_map]
        exact Nat.lt_of_not_le room
      · have absent : token ∉ (replayGuard.seen.filter (live now)).rows.map Keyed.key :=
          fun present => Table.mem_map_key_iff.1 present fresh
        have put : (replayGuard.seen.filter (live now)).put ⟨token, expires⟩ =
            ((replayGuard.seen.filter (live now)).insert ⟨token, expires⟩).1 := if_neg absent
        rw [put]
        rfl

end ReplayGuard

end CsdPool.Relay
