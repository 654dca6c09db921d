/-
# Adapter.Chain — where a block stands on the node's chain

The adapter looks a block up in two ways.  `pool_block_status` walks from the tip down to the first
block until it meets the wanted one; `canonical_chain_contains` walks only as far as the height of
the wanted one.  On an index whose heights count the parents both walks end and they agree
(`block_status_exact`), so what the pool makes of the answer is where the block stands: confirmed
at the required depth, immature above it, orphaned off the chain, submitted if nobody saw it.

The header index is the official node's.  What is relied on of it is `Stores.Ranked`: a header is
indexed under its own hash, one higher than its indexed parent, and the tip is indexed.

`confirmed_orphaned` compares two moments of one node: a block the pool took for confirmed is
reported orphaned later only after a reorganisation that gave up that many blocks.
-/
import CsdPool.Adapter.Assembly
import CsdPool.Rewards.Machine
import CsdPool.Theory.Ancestry

namespace CsdPool.Adapter

open Theory (Table)
open Theory.Ancestry
open Rewards (normalizeBlockStatus blockUpdateFromStatus)

set_option autoImplicit false

structure HeaderIndex where
  hash : Hash32
  parent : Hash32
  height : Nat
  deriving DecidableEq

/-- What the adapter reads of the node's database. -/
structure Stores where
  hidx : Hash32 → Option HeaderIndex
  tip : Option Hash32
  blocks : Hash32 → Option (List UInt8)

def zeroHash : Hash32 := .replicate 32 0

/-! ## The two walks

A walk that is out of fuel has no answer. -/

section Walks

variable (stores : Stores)

/-- `while cursor.height > wanted_header.height`. -/
def descend (height : Nat) : Nat → HeaderIndex → Option (Option HeaderIndex)
  | 0, _ => none
  | fuel + 1, cursor =>
      if cursor.height > height then
        match stores.hidx cursor.parent with
        | none => some none
        | some parent => descend height fuel parent
      else some (some cursor)

def canonicalChainContains (fuel : Nat) (tip wanted : Hash32) : Option Bool :=
  match stores.hidx wanted with
  | none => some false
  | some wantedHeader =>
      match stores.hidx tip with
      | none => some false
      | some cursor =>
          if cursor.height < wantedHeader.height then some false
          else (descend stores wantedHeader.height fuel cursor).map fun found =>
            found.any fun header => header.hash = wanted

/-- `while cursor != [0u8; 32]`. -/
def seek (wanted : Hash32) : Nat → Hash32 → Option Bool
  | 0, _ => none
  | fuel + 1, cursor =>
      if cursor = zeroHash then some false
      else if cursor = wanted then some true
      else
        match stores.hidx cursor with
        | none => some false
        | some header => seek wanted fuel header.parent

/-- `firstOutput` is the value of a transaction's first output; the job heights of the cache are
of one parent, so any of them is the template height. -/
def poolBlockStatus (fuel : Nat) (node : OfficialNode)
    (firstOutput : node.Transaction → Option Nat) (jobs : PoolJobs node.Transaction)
    (wanted : Hash32) : Option BlockStatusResponse :=
  let indexed := stores.hidx wanted
  let tip := stores.tip.getD zeroHash
  (seek stores wanted fuel tip).map fun canonical =>
    { hash := hexEncode wanted.toList
      status :=
        if canonical then "seen_on_chain"
        else if indexed.isSome then "orphaned"
        else "submitted"
      height := indexed.map HeaderIndex.height
      confirmations :=
        if canonical then
          match stores.hidx tip, indexed with
          | some tip, some block => min (tip.height - block.height + 1) u64Max
          | _, _ => 0
        else 0
      rewardBaseUnits :=
        ((stores.blocks wanted).bind fun bytes => (node.deserializeBlock bytes).toOption).bind
          fun block => block.txs.head?.bind firstOutput
      extra := .object [("template_height",
        (jobs.rows.head?).elim .null fun job => .number (.unsigned job.height))] }

end Walks

/-! ## The index -/

structure Stores.Ranked (stores : Stores) : Prop where
  keyed : ∀ {hash header}, stores.hidx hash = some header → header.hash = hash
  zero : stores.hidx zeroHash = none
  grounded : ∀ {hash header}, stores.hidx hash = some header → header.parent = zeroHash →
    header.height = 0
  linked : ∀ {hash header}, stores.hidx hash = some header → header.parent ≠ zeroHash →
    ∃ parent, stores.hidx header.parent = some parent ∧ header.height = parent.height + 1
  tipped : ∀ {tip}, stores.tip = some tip → ∃ header, stores.hidx tip = some header

/-- The index as a chain of parents. -/
def Stores.Ranked.index {stores : Stores} (ranked : stores.Ranked) : Index Hash32 HeaderIndex where
  lookup := stores.hidx
  parent := HeaderIndex.parent
  height := HeaderIndex.height
  root := zeroHash
  root_unknown := ranked.zero
  grounded := ranked.grounded
  linked := ranked.linked

section Ranked

variable {stores : Stores} (ranked : stores.Ranked)

/-- On the chain of the tip. -/
def Stores.Ranked.Canonical (wanted : Hash32) : Prop :=
  ∃ tip, stores.tip = some tip ∧ ranked.index.OnChain tip wanted

variable {wanted tip : Hash32} {top block : HeaderIndex}

/-- The walk to the wanted block ends, and finds it on the chain or not at all. -/
theorem seek_iff (wanted : Hash32) {fuel : Nat} (known : stores.hidx tip = some top) (enough : top.height + 2 ≤ fuel) :
    ∃ found, seek stores wanted fuel tip = some found ∧
      (found = true ↔ ranked.index.OnChain tip wanted) := by
  induction fuel generalizing tip top with
  | zero => omega
  | succ fuel ih =>
      have notZero : tip ≠ zeroHash := by
        rintro rfl
        rw [ranked.zero] at known
        cases known
      by_cases here : tip = wanted
      · subst here
        exact ⟨true, by rw [seek, if_neg notZero, if_pos rfl], by simpa using .here known⟩
      · have onward : ranked.index.OnChain tip wanted ↔
            ranked.index.OnChain top.parent wanted := by
          constructor
          · intro chain
            cases chain with
            | here _ => exact absurd rfl here
            | up there rest =>
                cases known.symm.trans there
                exact rest
          · exact fun rest => .up known rest
        rw [seek, if_neg notZero, if_neg here, known, onward]
        dsimp only
        by_cases bottom : top.parent = zeroHash
        · refine ⟨false, ?_, by simp, fun chain => ?_⟩
          · obtain ⟨fuel, rfl⟩ : ∃ n, fuel = n + 1 := ⟨fuel - 1, by omega⟩
            rw [bottom, seek, if_pos rfl]
          · obtain ⟨p, there⟩ := chain.tip_known
            rw [bottom] at there
            cases ranked.zero.symm.trans there
        · obtain ⟨parent, there, above⟩ := ranked.linked known bottom
          exact ih there (by omega)

/-- The walk to a height ends at the block of the chain at that height. -/
theorem descend_eq (height fuel : Nat) (known : stores.hidx tip = some top)
    (above : height ≤ top.height) (enough : top.height + 1 ≤ fuel + height) :
    ∃ found, descend stores height fuel top = some (some found) ∧ found.height = height ∧
      stores.hidx found.hash = some found ∧ ranked.index.OnChain tip found.hash := by
  induction fuel generalizing tip top with
  | zero => omega
  | succ fuel ih =>
      by_cases level : top.height > height
      · have notBottom : top.parent ≠ zeroHash := by
          intro bottom
          have ground := ranked.grounded known bottom
          omega
        obtain ⟨parent, there, height_⟩ := ranked.linked known notBottom
        obtain ⟨found, walked, same, keyed, chain⟩ := ih there (by omega) (by omega)
        refine ⟨found, ?_, same, keyed, .up known chain⟩
        rw [descend, if_pos level, there]
        exact walked
      · have own : top.hash = tip := ranked.keyed known
        refine ⟨top, by rw [descend, if_neg level], by omega, own ▸ known, ?_⟩
        rw [own]
        exact .here known

/-- **The short walk finds what is on the chain.** -/
theorem canonicalChainContains_iff (wanted : Hash32) (fuel : Nat) (known : stores.hidx tip = some top)
    (enough : top.height + 1 ≤ fuel) :
    ∃ found, canonicalChainContains stores fuel tip wanted = some found ∧
      (found = true ↔ ranked.index.OnChain tip wanted) := by
  unfold canonicalChainContains
  cases indexed : stores.hidx wanted with
  | none =>
      refine ⟨false, rfl, by simp, fun chain => ?_⟩
      obtain ⟨block, there⟩ := chain.known
      cases indexed.symm.trans there
  | some block =>
      rw [known]
      dsimp only
      by_cases lower : top.height < block.height
      · rw [if_pos lower]
        refine ⟨false, rfl, by simp, fun chain => ?_⟩
        have le : block.height ≤ top.height := (chain.height_le known indexed).1
        omega
      · obtain ⟨found, walked, level, keyed, chain⟩ :=
          descend_eq ranked block.height fuel known (by omega) (by omega)
        rw [if_neg lower, walked]
        refine ⟨_, rfl, ?_⟩
        show (some found).any (fun header => decide (header.hash = wanted)) = true ↔ _
        rw [Option.any_some, decide_eq_true_eq]
        constructor
        · rintro rfl
          exact chain
        · intro wantedChain
          exact Index.onChain_unique wantedChain chain indexed keyed level.symm

/-! ## The status -/

/-- Where a block stands, with what is said of it. -/
inductive Standing (ranked : stores.Ranked) (wanted : Hash32) : String → Nat → Prop
  | onChain {tip : Hash32} {top block : HeaderIndex} (tipped : stores.tip = some tip)
      (chain : ranked.index.OnChain tip wanted) (known : stores.hidx tip = some top)
      (indexed : stores.hidx wanted = some block) :
      Standing ranked wanted "seen_on_chain" (min (top.height - block.height + 1) u64Max)
  | offChain {block : HeaderIndex} (indexed : stores.hidx wanted = some block)
      (off : ¬ ranked.Canonical wanted) : Standing ranked wanted "orphaned" 0
  | unseen (unknown : stores.hidx wanted = none) : Standing ranked wanted "submitted" 0

/-- Enough steps for every walk down from the tip. -/
def Stores.Deep (stores : Stores) (fuel : Nat) : Prop :=
  1 ≤ fuel ∧ ∀ tip top, stores.tip = some tip → stores.hidx tip = some top → top.height + 2 ≤ fuel

theorem seek_tip (fuel : Nat) (deep : stores.Deep fuel) (wanted : Hash32) :
    ∃ found, seek stores wanted fuel (stores.tip.getD zeroHash) = some found ∧
      (found = true ↔ ranked.Canonical wanted) := by
  cases tipped : stores.tip with
  | none =>
      obtain ⟨fuel, rfl⟩ : ∃ n, fuel = n + 1 := ⟨fuel - 1, by have := deep.1; omega⟩
      refine ⟨false, by rw [Option.getD_none, seek, if_pos rfl], by simp, ?_⟩
      rintro ⟨tip, there, -⟩
      cases tipped.symm.trans there
  | some tip =>
      obtain ⟨top, known⟩ := ranked.tipped tipped
      obtain ⟨found, walked, iff⟩ :=
        seek_iff ranked wanted known (deep.2 tip top tipped known)
      refine ⟨found, walked, iff.trans ⟨fun chain => ⟨tip, tipped, chain⟩, ?_⟩⟩
      rintro ⟨tip', there, chain⟩
      cases tipped.symm.trans there
      exact chain

theorem poolBlockStatus_standing (fuel : Nat) (deep : stores.Deep fuel) (node : OfficialNode)
    (firstOutput : node.Transaction → Option Nat) (jobs : PoolJobs node.Transaction)
    (wanted : Hash32) :
    ∃ response, poolBlockStatus stores fuel node firstOutput jobs wanted = some response ∧
      response.hash = hexEncode wanted.toList ∧
      response.height = (stores.hidx wanted).map HeaderIndex.height ∧
      Standing ranked wanted response.status response.confirmations := by
  obtain ⟨found, walked, iff⟩ := seek_tip ranked fuel deep wanted
  unfold poolBlockStatus
  dsimp only
  rw [walked]
  refine ⟨_, rfl, rfl, rfl, ?_⟩
  dsimp only
  cases found with
  | true =>
      obtain ⟨tip, tipped, chain⟩ := iff.1 rfl
      obtain ⟨top, known⟩ := chain.tip_known
      obtain ⟨block, indexed⟩ := chain.known
      change stores.hidx tip = some top at known
      change stores.hidx wanted = some block at indexed
      rw [tipped, Option.getD_some, known, indexed]
      exact .onChain tipped chain known indexed
  | false =>
      have off : ¬ ranked.Canonical wanted := fun canonical => by cases iff.2 canonical
      cases indexed : stores.hidx wanted with
      | none => exact .unseen indexed
      | some block => exact .offChain indexed off

/-- What the pool makes of a block that stands somewhere. -/
theorem Standing.normalized {ranked : stores.Ranked} {status : String} {confirmations required : Nat}
    (standing : Standing ranked wanted status confirmations) (positive : 0 < required) :
    let normal := normalizeBlockStatus status confirmations required
    (normal = .confirmed ↔ ranked.Canonical wanted ∧ required ≤ confirmations) ∧
    (normal = .immature ↔ ranked.Canonical wanted ∧ confirmations < required) ∧
    (normal = .orphaned ↔ (∃ block, stores.hidx wanted = some block) ∧
      ¬ ranked.Canonical wanted) ∧
    (normal = .submitted ↔ stores.hidx wanted = none) := by
  intro normal
  cases standing with
  | @onChain tip top block tipped chain known indexed =>
      have canonical : ranked.Canonical wanted := ⟨tip, tipped, chain⟩
      have seen : 0 < min (top.height - block.height + 1) u64Max := by
        rw [Nat.lt_min]
        exact ⟨Nat.succ_pos _, by decide⟩
      by_cases enough : required ≤ min (top.height - block.height + 1) u64Max
      · have here : normal = .confirmed := by
          show normalizeBlockStatus _ _ _ = _
          rw [normalizeBlockStatus, if_neg (by decide), if_pos enough]
        simp only [here, canonical, indexed, enough, Nat.not_lt.2 enough]
        simp
      · have here : normal = .immature := by
          show normalizeBlockStatus _ _ _ = _
          rw [normalizeBlockStatus, if_neg (by decide), if_neg enough, if_pos seen]
        simp only [here, canonical, indexed, enough, Nat.lt_of_not_le enough]
        simp
  | @offChain block indexed off =>
      have here : normal = .orphaned := rfl
      simp [here, off, indexed]
  | unseen unknown =>
      have off : ¬ ranked.Canonical wanted := by
        rintro ⟨tip, -, chain⟩
        obtain ⟨block, there⟩ := chain.known
        cases unknown.symm.trans there
      have here : normal = .submitted := by
        show normalizeBlockStatus _ _ _ = _
        rw [normalizeBlockStatus, if_neg (by decide), if_neg (by omega), if_neg (by omega),
          if_neg (by decide)]
      simp [here, off, unknown]

/-- **The pool records where the block stands.**  On every well-ranked index both walks end and
agree, and the status the pool derives at a positive depth is confirmed, immature, orphaned or
submitted exactly as the block is deep enough on the chain of the tip, on it, off it, or unknown;
its confirmations are the blocks of the chain from it up to the tip. -/
theorem block_status_exact (fuel : Nat) (deep : stores.Deep fuel) (node : OfficialNode)
    (firstOutput : node.Transaction → Option Nat) (jobs : PoolJobs node.Transaction)
    (wanted : Hash32) :
    ∃ response, poolBlockStatus stores fuel node firstOutput jobs wanted = some response ∧
      (∀ tip, stores.tip = some tip → canonicalChainContains stores fuel tip wanted =
        some (decide (response.status = "seen_on_chain"))) ∧
      (∀ tip top block, stores.tip = some tip → ranked.index.OnChain tip wanted →
        stores.hidx tip = some top → stores.hidx wanted = some block →
          response.confirmations = min (top.height - block.height + 1) u64Max) ∧
      ∀ required, 0 < required →
        let recorded := blockUpdateFromStatus (hexEncode wanted.toList) response required
        (recorded.status = .confirmed ↔
          ranked.Canonical wanted ∧ required ≤ response.confirmations) ∧
        (recorded.status = .immature ↔
          ranked.Canonical wanted ∧ response.confirmations < required) ∧
        (recorded.status = .orphaned ↔ (∃ block, stores.hidx wanted = some block) ∧
          ¬ ranked.Canonical wanted) ∧
        (recorded.status = .submitted ↔ stores.hidx wanted = none) := by
  obtain ⟨response, answered, -, -, standing⟩ :=
    poolBlockStatus_standing ranked fuel deep node firstOutput jobs wanted
  refine ⟨response, answered, ?_, ?_, fun required positive => standing.normalized positive⟩
  · intro tip tipped
    obtain ⟨top, known⟩ := ranked.tipped tipped
    have high := deep.2 tip top tipped known
    obtain ⟨found, walked, iff⟩ :=
      canonicalChainContains_iff ranked wanted fuel known (by omega)
    rw [walked]
    congr 1
    generalize response.status = status, response.confirmations = confirmations at standing ⊢
    cases standing with
    | @onChain tip' top' block tipped' chain known' indexed =>
        cases tipped.symm.trans tipped'
        rw [iff.2 chain]
        rfl
    | offChain _ off => exact Bool.eq_false_iff.2 fun yes => off ⟨tip, tipped, iff.1 yes⟩
    | unseen unknown =>
        apply Bool.eq_false_iff.2
        intro yes
        obtain ⟨block, there⟩ := (iff.1 yes).known
        cases unknown.symm.trans there
  · intro tip top block tipped chain known indexed
    generalize response.status = status, response.confirmations = confirmations at standing ⊢
    cases standing with
    | @onChain tip' top' block' tipped' chain' known' indexed' =>
        cases tipped.symm.trans tipped'
        cases known.symm.trans known'
        cases indexed.symm.trans indexed'
        rfl
    | offChain _ off => exact absurd ⟨tip, tipped, chain⟩ off
    | unseen unknown => cases unknown.symm.trans indexed

end Ranked

/-! ### One index -/

namespace Sample

def hashOf (n : UInt8) : Hash32 := .cons n (.replicate 31 0)

/-- A row of the index: a header, its parent and its height. -/
def row (hash parent : UInt8) (height : Nat) : HeaderIndex := ⟨hashOf hash, hashOf parent, height⟩

def storesOf (headers : List HeaderIndex) (tip : UInt8) : Stores where
  hidx hash := headers.find? fun header => header.hash = hash
  tip := some (hashOf tip)
  blocks _ := none

/-- What can be read off a list of headers. -/
def wellRanked (headers : List HeaderIndex) (tip : UInt8) : Bool :=
  (headers.all fun header => header.hash ≠ zeroHash ∧
    if header.parent = zeroHash then header.height = 0
    else (headers.find? fun parent => parent.hash = header.parent).any fun parent =>
      header.height = parent.height + 1) &&
    (headers.find? fun header => header.hash = hashOf tip).isSome

theorem ranked {headers : List HeaderIndex} {tip : UInt8} (well : wellRanked headers tip = true) :
    (storesOf headers tip).Ranked := by
  obtain ⟨rows, tipped⟩ := Bool.and_eq_true_iff.1 well
  have each : ∀ {hash header}, (storesOf headers tip).hidx hash = some header →
      header ∈ headers ∧ header.hash = hash := fun found =>
    ⟨List.mem_of_find?_eq_some found, by simpa using List.find?_some found⟩
  have said : ∀ header ∈ headers, _ := fun header member =>
    of_decide_eq_true (List.all_eq_true.1 rows header member)
  refine ⟨fun found => (each found).2, ?_, ?_, ?_, ?_⟩
  · cases found : (storesOf headers tip).hidx zeroHash with
    | none => rfl
    | some header =>
        obtain ⟨member, same⟩ := each found
        exact absurd same (said header member).1
  · intro hash header found bottom
    have rest := (said header (each found).1).2
    rw [if_pos bottom] at rest
    exact rest
  · intro hash header found notBottom
    have rest := (said header (each found).1).2
    rw [if_neg notBottom] at rest
    cases up : headers.find? fun parent => parent.hash = header.parent with
    | none => simp [up] at rest
    | some parent => exact ⟨parent, up, by simpa [up] using rest⟩
  · intro top same
    cases same
    exact Option.isSome_iff_exists.1 tipped

theorem deep {headers : List HeaderIndex} {tip : UInt8}
    (low : ∀ header ∈ headers, header.height + 2 ≤ 9) : (storesOf headers tip).Deep 9 :=
  ⟨by decide, fun _ top _ known => low top (List.mem_of_find?_eq_some known)⟩

/-- Three blocks on top of each other. -/
def early : List HeaderIndex := [row 1 0 0, row 2 1 1, row 3 2 2]

/-- A longer chain beside the second and the third of them. -/
def late : List HeaderIndex := early ++ [row 4 1 1, row 5 4 2, row 6 5 3]

def status (headers : List HeaderIndex) (tip wanted : UInt8) : Option BlockStatusResponse :=
  poolBlockStatus (storesOf headers tip) 9 (node Theory.Sha256.digest (shown Theory.Sha256.digest))
    (fun _ => none) .empty (hashOf wanted)

end Sample

/-- The second of three blocks. -/
theorem block_status_exact_sample :
    ∃ response, Sample.status Sample.early 3 2 = some response ∧
      (blockUpdateFromStatus (hexEncode (Sample.hashOf 2).toList) response 2).status = .confirmed := by
  have deep : (Sample.storesOf Sample.early 3).Deep 9 :=
    Sample.deep (by decide)
  have ranked : (Sample.storesOf Sample.early 3).Ranked := Sample.ranked (by decide)
  have third : (Sample.storesOf Sample.early 3).hidx (Sample.hashOf 3) =
      some (Sample.row 3 2 2) := by decide
  have second : (Sample.storesOf Sample.early 3).hidx (Sample.hashOf 2) =
      some (Sample.row 2 1 1) := by decide
  have chained : ranked.Canonical (Sample.hashOf 2) := ⟨_, rfl, .up third (.here second)⟩
  obtain ⟨response, answered, -, count, recorded⟩ :=
    block_status_exact ranked 9 deep
      (Sample.node Theory.Sha256.digest (Sample.shown Theory.Sha256.digest)) (fun _ => none) .empty
      (Sample.hashOf 2)
  refine ⟨response, answered, (recorded 2 (by decide)).1.2 ⟨chained, ?_⟩⟩
  obtain ⟨tip, tipped, chain⟩ := chained
  rw [count tip (Sample.row 3 2 2) (Sample.row 2 1 1) tipped chain (by cases tipped; decide)
    (by decide)]
  decide

/-! ## Two moments of one node -/

section Moments

variable {before after : Stores}

/-- Headers are indexed and never forgotten; the tip goes anywhere. -/
def Stores.Extends (before after : Stores) : Prop :=
  ∀ {hash header}, before.hidx hash = some header → after.hidx hash = some header

theorem Stores.Extends.grows (extended : before.Extends after) (ranked : before.Ranked)
    (ranked' : after.Ranked) : Index.Grows ranked.index ranked'.index :=
  ⟨rfl, rfl, extended⟩

/-- **Only a deep reorganisation orphans a confirmed block.**  Take two moments of a node whose
index grew between them.  If the pool recorded a block as confirmed at some depth at the first and
records it as orphaned at the second, every block that is on the chain of both tips lies at least
that depth below the first tip.  If the second tip was built on the first one, the block is still
confirmed, with as many more confirmations as the chain got longer. -/
theorem confirmed_orphaned (ranked : before.Ranked) (ranked' : after.Ranked)
    (extended : before.Extends after) {fuel fuel' : Nat} (deep : before.Deep fuel)
    (deep' : after.Deep fuel') {node : OfficialNode} {firstOutput : node.Transaction → Option Nat}
    {jobs jobs' : PoolJobs node.Transaction} {wanted : Hash32}
    {first second : BlockStatusResponse}
    (answered : poolBlockStatus before fuel node firstOutput jobs wanted = some first)
    (answered' : poolBlockStatus after fuel' node firstOutput jobs' wanted = some second)
    {required : Nat} (positive : 0 < required) (text : String)
    (confirmed : (blockUpdateFromStatus text first required).status = .confirmed)
    {tip tip' : Hash32} (tipped : before.tip = some tip) (tipped' : after.tip = some tip')
    (top top' : HeaderIndex) (known : before.hidx tip = some top)
    (known' : after.hidx tip' = some top') :
    ((blockUpdateFromStatus text second required).status = .orphaned →
      ∀ shared header, ranked'.index.OnChain tip shared → ranked'.index.OnChain tip' shared →
        after.hidx shared = some header → header.height + required ≤ top.height) ∧
    (ranked'.index.OnChain tip' tip →
      (blockUpdateFromStatus text second required).status = .confirmed ∧
      second.confirmations = min (first.confirmations + (top'.height - top.height)) u64Max) := by
  obtain ⟨response, same, -, -, standing⟩ :=
    poolBlockStatus_standing ranked fuel deep node firstOutput jobs wanted
  obtain rfl := Option.some.inj (answered.symm.trans same)
  obtain ⟨response', same', -, -, standing'⟩ :=
    poolBlockStatus_standing ranked' fuel' deep' node firstOutput jobs' wanted
  obtain rfl := Option.some.inj (answered'.symm.trans same')
  obtain ⟨canonical, enough⟩ := (standing.normalized positive).1.1 confirmed
  obtain ⟨tip'', tipped'', chain⟩ := canonical
  obtain rfl := Option.some.inj (tipped.symm.trans tipped'')
  obtain ⟨block, indexed⟩ := chain.known
  have chain' := (extended.grows ranked ranked').onChain chain
  have indexed' : after.hidx wanted = some block := extended indexed
  have level : block.height ≤ top.height := (chain.height_le known indexed).1
  have count : first.confirmations = min (top.height - block.height + 1) u64Max := by
    obtain ⟨response, again, -, exact_, -⟩ :=
      block_status_exact ranked fuel deep node firstOutput jobs wanted
    obtain rfl := Option.some.inj (answered.symm.trans again)
    exact exact_ tip top block tipped chain known indexed
  rw [count] at enough
  constructor
  · intro orphaned shared header here there sharedKnown
    by_contra shallow
    -- The shared block is not below the wanted one, so the wanted one is on its chain.
    have onShared : ranked'.index.OnChain shared wanted :=
      chain'.to_lower here indexed' sharedKnown (by
        show block.height ≤ header.height
        omega)
    exact ((standing'.normalized positive).2.2.1.1 orphaned).2
      ⟨tip', tipped', there.trans onShared⟩
  · intro built
    have stays : ranked'.Canonical wanted := ⟨tip', tipped', built.trans chain'⟩
    have higher : top.height ≤ top'.height := (built.height_le known' (extended known)).1
    have count' : second.confirmations = min (top'.height - block.height + 1) u64Max := by
      obtain ⟨response, again, -, exact_, -⟩ :=
        block_status_exact ranked' fuel' deep' node firstOutput jobs' wanted
      obtain rfl := Option.some.inj (answered'.symm.trans again)
      exact exact_ tip' top' block tipped' (built.trans chain') known' indexed'
    refine ⟨(standing'.normalized positive).1.2 ⟨stays, ?_⟩, ?_⟩
    · rw [count']
      omega
    · rw [count', count]
      omega

end Moments


/-- The second of three blocks is given up for a longer chain from the first on. -/
theorem confirmed_orphaned_sample :
    ∃ first second, Sample.status Sample.early 3 2 = some first ∧
      Sample.status Sample.late 6 2 = some second ∧
      (blockUpdateFromStatus "" first 2).status = .confirmed ∧
      (blockUpdateFromStatus "" second 2).status = .orphaned ∧
      (Sample.row 1 0 0).height + 2 ≤ (Sample.row 3 2 2).height := by
  have extended : (Sample.storesOf Sample.early 3).Extends (Sample.storesOf Sample.late 6) := by
    intro hash header known
    change (Sample.early.find? fun header => header.hash = hash) = some header at known
    change (Sample.late.find? fun header => header.hash = hash) = some header
    rw [Sample.late, List.find?_append, known, Option.some_or]
  have first : Sample.status Sample.early 3 2 = some _ := rfl
  have second : Sample.status Sample.late 6 2 = some _ := rfl
  refine ⟨_, _, first, second, by decide, by decide, ?_⟩
  exact (confirmed_orphaned (Sample.ranked (by decide)) (Sample.ranked (by decide)) extended
    (Sample.deep (by decide)) (Sample.deep (by decide)) first second (by decide) "" (by decide) rfl
    rfl (Sample.row 3 2 2) (Sample.row 6 5 3) (by decide) (by decide)).1 (by decide) (Sample.hashOf 1) (Sample.row 1 0 0)
    (.up (v := Sample.row 3 2 2) (by decide) (.up (v := Sample.row 2 1 1) (by decide)
      (.here (v := Sample.row 1 0 0) (by decide))))
    (.up (v := Sample.row 6 5 3) (by decide) (.up (v := Sample.row 5 4 2) (by decide)
      (.up (v := Sample.row 4 1 1) (by decide) (.here (v := Sample.row 1 0 0) (by decide)))))
    (by decide)

end CsdPool.Adapter
