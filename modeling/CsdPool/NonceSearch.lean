/-
# NonceSearch — the candidate canary's search for a nonce

`search_candidate_nonce` splits the nonces from `start_nonce` on into one chunk for each thread
and lets the threads search until one finds a hash under the target.  The chunks are computed in
saturating 64-bit arithmetic and cut off at the last nonce there is; together they are the whole
span, and no more than it (`mem_searchRange`, `sum_searchRange`).
-/
import CsdPool.Consensus
import CsdPool.Theory.ParallelSearch
import CsdPool.Theory.Saturating

namespace CsdPool

open Theory

set_option autoImplicit false

/-- `candidate_header[80..84].copy_from_slice(&nonce.to_le_bytes())`. -/
def withNonce (header : Bytes 84) (nonce : UInt32) : Bytes 84 :=
  header.take 80 ++ toLeBytes 4 nonce.toNat

def divCeil (n d : Nat) : Nat := (n + d - 1) / d

/-- The end of the search, `start + max_attempts` or the nonce after the last one. -/
def searchEnd (start maxAttempts : Nat) : Nat :=
  min (Saturating.add u64Max start maxAttempts) (2 ^ 32)

/-- What a thread is given; the thread is not spawned where that is nothing. -/
def searchRange (start end_ chunk threadIndex : Nat) : Option (Nat × Nat) :=
  let first := Saturating.add u64Max start (min (chunk * threadIndex) u64Max)
  let limit := min (Saturating.add u64Max first chunk) end_
  if limit ≤ first then none else some (first, limit)

def searchRanges (start maxAttempts threads : Nat) : List (Nat × Nat) :=
  let end_ := searchEnd start maxAttempts
  let chunk := divCeil (end_ - start) threads
  (List.range threads).filterMap (searchRange start end_ chunk)

section Search

variable (digest : Digest) (header : Bytes 84) (target : Hash32)

/-- The body of the loop up to the stop flag. -/
def tryNonce (nonce : Nat) : Option Hash32 :=
  let hash := headerHash digest (withNonce header (UInt32.ofNat nonce))
  if hashLeqTarget hash target then some hash else none

/-- The threads of `search_candidate_nonce`. -/
def searchCandidateNonce (startNonce : UInt32) (maxAttempts : UInt64) (threads : Nat) :
    Machine (ParallelSearch.State Hash32) ParallelSearch.Turn :=
  ParallelSearch.search (tryNonce digest header target)
    (searchRanges startNonce.toNat maxAttempts.toNat threads)

end Search

/-- What is returned once the threads are joined. -/
def searchResult (s : ParallelSearch.State Hash32) : Option (UInt32 × Hash32 × Nat) :=
  s.result.map fun (nonce, hash) => (UInt32.ofNat nonce, hash, s.attempts)

/-! ## The chunks -/

theorem le_divCeil_mul (n : Nat) {d : Nat} (positive : 0 < d) : n ≤ divCeil n d * d := by
  have division := Nat.div_add_mod (n + d - 1) d
  have below := Nat.mod_lt (n + d - 1) positive
  rw [divCeil, Nat.mul_comm]
  omega

theorem searchEnd_le (start maxAttempts : Nat) : searchEnd start maxAttempts ≤ u64Max :=
  (Nat.min_le_right ..).trans (by decide)

section Chunks

variable {start end_ chunk : Nat}

/-- One thread's range is the next chunk of the span; saturation never shows. -/
theorem searchRange_eq (below : end_ ≤ u64Max) (threadIndex : Nat) :
    searchRange start end_ chunk threadIndex =
      if chunk = 0 ∨ end_ ≤ start + chunk * threadIndex then none
      else some (start + chunk * threadIndex, min (start + chunk * (threadIndex + 1)) end_) := by
  unfold searchRange
  rw [Nat.mul_succ]
  generalize chunk * threadIndex = before
  by_cases nothing : chunk = 0 ∨ end_ ≤ start + before
  · rw [if_pos nothing]
    apply if_pos
    simp only [Saturating.add]
    omega
  · rw [if_neg nothing]
    refine (if_neg ?_).trans (congrArg some (Prod.ext ?_ ?_)) <;>
      simp only [Saturating.add] <;> omega

/-- The first `k` threads search the first `k` chunks of the span. -/
theorem sum_searchRange (below : end_ ≤ u64Max) (k : Nat) :
    (((List.range k).filterMap (searchRange start end_ chunk)).map
      fun range => range.2 - range.1).sum = min (chunk * k) (end_ - start) := by
  induction k with
  | zero => simp
  | succ k ih =>
      rw [List.range_succ, List.filterMap_append, List.map_append, List.sum_append, ih,
        Nat.mul_succ]
      have one : (([k].filterMap (searchRange start end_ chunk)).map
          fun range => range.2 - range.1).sum =
          min (chunk * k + chunk) (end_ - start) - min (chunk * k) (end_ - start) := by
        rw [List.filterMap_cons, searchRange_eq below, Nat.mul_succ]
        generalize chunk * k = before
        by_cases nothing : chunk = 0 ∨ end_ ≤ start + before
        · rw [if_pos nothing]
          simp only [List.filterMap_nil, List.map_nil, List.sum_nil]
          omega
        · rw [if_neg nothing]
          simp only [List.filterMap_nil, List.map_cons, List.map_nil, List.sum_cons, List.sum_nil]
          omega
      omega

theorem mem_searchRange {threads n : Nat} (below : end_ ≤ u64Max)
    (enough : end_ - start ≤ chunk * threads) :
    (∃ range ∈ (List.range threads).filterMap (searchRange start end_ chunk),
      range.1 ≤ n ∧ n < range.2) ↔ start ≤ n ∧ n < end_ := by
  constructor
  · rintro ⟨range, member, atLeast, less⟩
    obtain ⟨threadIndex, -, given⟩ := List.mem_filterMap.1 member
    rw [searchRange_eq below] at given
    split at given
    · cases given
    · cases given
      exact ⟨(Nat.le_add_right ..).trans atLeast, less.trans_le (Nat.min_le_right ..)⟩
  · rintro ⟨atLeast, less⟩
    have positive : 0 < chunk := by
      rcases Nat.eq_zero_or_pos chunk with rfl | positive
      · omega
      · exact positive
    have division := Nat.div_add_mod (n - start) chunk
    have remainder := Nat.mod_lt (n - start) positive
    have inRange : (n - start) / chunk < threads := by
      rw [Nat.div_lt_iff_lt_mul positive, Nat.mul_comm]
      omega
    refine ⟨(start + chunk * ((n - start) / chunk),
        min (start + chunk * ((n - start) / chunk + 1)) end_),
      List.mem_filterMap.2 ⟨_, List.mem_range.2 inRange, ?_⟩, ?_, ?_⟩
    · rw [searchRange_eq below, if_neg (by omega)]
    · simp only
      omega
    · simp only [Nat.mul_succ]
      omega

end Chunks

/-! ## The search -/

section Exact

section Try

variable {digest : Digest} {header : Bytes 84} {target : Hash32}

theorem tryNonce_some {n : Nat} {hash : Hash32} :
    tryNonce digest header target n = some hash ↔
      hash = headerHash digest (withNonce header (UInt32.ofNat n)) ∧
        hashLeqTarget hash target = true := by
  unfold tryNonce
  by_cases good : hashLeqTarget (headerHash digest (withNonce header (UInt32.ofNat n))) target = true
  · rw [if_pos good, Option.some.injEq]
    exact ⟨fun same => ⟨same.symm, same ▸ good⟩, fun both => both.1.symm⟩
  · rw [if_neg good]
    exact ⟨by rintro ⟨⟩, fun both => absurd (both.1 ▸ both.2) good⟩

theorem tryNonce_none (digest : Digest) (header : Bytes 84) (target : Hash32) {n : Nat} :
    tryNonce digest header target n = none ↔
      hashLeqTarget (headerHash digest (withNonce header (UInt32.ofNat n))) target = false := by
  rw [← Bool.not_eq_true, tryNonce, ite_eq_right_iff]
  refine imp_congr_right fun _ => ?_
  exact iff_of_false (by rintro ⟨⟩) id

end Try

variable (digest : Digest) (header : Bytes 84) (target : Hash32) {startNonce : UInt32}
  {maxAttempts : UInt64} {threads : Nat} {s : ParallelSearch.State Hash32}

/-- **The search under every schedule.**  However the threads are scheduled, and however late they
see the stop flag: as long as one is not joined one can move, and the turns run out; and once all
are joined there is a nonce exactly when one of the nonces from `start_nonce` on, at most
`max_attempts` of them, hashes to the target or below.  The nonce returned is one of those, with
its own hash, and no more than `max_attempts` were tried. -/
theorem searchCandidateNonce_exact (spawned : 0 < threads)
    (reached : (searchCandidateNonce digest header target startNonce maxAttempts threads).Reachable
      s) :
    (∀ turns s', (searchCandidateNonce digest header target startNonce maxAttempts threads).run s
      turns = some s' → turns.length ≤ s.fuel) ∧
    (¬s.Joined → ∃ turn s',
      (searchCandidateNonce digest header target startNonce maxAttempts threads).step s turn =
        some s') ∧
    (s.Joined →
      (searchResult s = none ↔ ∀ nonce : UInt32, startNonce ≤ nonce →
        nonce.toNat < startNonce.toNat + maxAttempts.toNat →
          hashLeqTarget (headerHash digest (withNonce header nonce)) target = false) ∧
      ∀ nonce hash attempts, searchResult s = some (nonce, hash, attempts) →
        startNonce ≤ nonce ∧ nonce.toNat < startNonce.toNat + maxAttempts.toNat ∧
        hash = headerHash digest (withNonce header nonce) ∧
        hashLeqTarget hash target = true ∧ 0 < attempts ∧ attempts ≤ maxAttempts.toNat) := by
  have sound := ParallelSearch.search_sound reached
  have small : startNonce.toNat < 2 ^ 32 := startNonce.toNat_lt
  have end_iff : ∀ {n}, n < searchEnd startNonce.toNat maxAttempts.toNat ↔
      n < startNonce.toNat + maxAttempts.toNat ∧ n < 2 ^ 32 := by
    intro n
    simp only [searchEnd, Saturating.add, u64Max]
    omega
  have spanBound : searchEnd startNonce.toNat maxAttempts.toNat - startNonce.toNat ≤
      maxAttempts.toNat := by
    simp only [searchEnd, Saturating.add]
    omega
  have covered := fun n => mem_searchRange (n := n) (searchEnd_le startNonce.toNat maxAttempts.toNat)
    (le_divCeil_mul (searchEnd startNonce.toNat maxAttempts.toNat - startNonce.toNat) spawned)
  refine ⟨fun turns s' ran => ParallelSearch.run_length_le sound ran,
    fun open_ => ParallelSearch.exists_step _ open_, fun joined => ⟨?_, ?_⟩⟩
  · constructor
    · intro nothing nonce atLeast less
      have none_ : s.result = none := by simpa [searchResult] using nothing
      have inside := (covered nonce.toNat).2
        ⟨UInt32.le_iff_toNat_le.1 atLeast, end_iff.2 ⟨less, nonce.toNat_lt⟩⟩
      obtain ⟨range, member, first, limit⟩ := inside
      have miss := sound.exhausted joined none_ range member nonce.toNat first limit
      rw [tryNonce_none, UInt32.ofNat_toNat] at miss
      exact miss
    · intro misses
      rw [searchResult, Option.map_eq_none_iff]
      by_contra some_
      obtain ⟨⟨n, r⟩, found⟩ := Option.ne_none_iff_exists'.1 some_
      obtain ⟨hit, inside, -⟩ := sound.found found
      obtain ⟨atLeast, below⟩ := (covered n).1 inside
      obtain ⟨less, small⟩ := end_iff.1 below
      have same : (UInt32.ofNat n).toNat = n := UInt32.toNat_ofNat_of_lt' small
      have miss := misses (UInt32.ofNat n) (UInt32.le_iff_toNat_le.2 (same.symm ▸ atLeast))
        (same.symm ▸ less)
      rw [(tryNonce_none digest header target).2 miss] at hit
      cases hit
  · intro nonce hash attempts shown
    obtain ⟨⟨n, r⟩, found, shown⟩ := Option.map_eq_some_iff.1 shown
    obtain ⟨rfl, rfl, rfl⟩ : UInt32.ofNat n = nonce ∧ r = hash ∧ s.attempts = attempts := by
      simpa using shown
    obtain ⟨hit, inside, tried⟩ := sound.found found
    obtain ⟨atLeast, below⟩ := (covered n).1 inside
    obtain ⟨less, small⟩ := end_iff.1 below
    have same : (UInt32.ofNat n).toNat = n := UInt32.toNat_ofNat_of_lt' small
    obtain ⟨rfl, good⟩ := tryNonce_some.1 hit
    refine ⟨UInt32.le_iff_toNat_le.2 (same.symm ▸ atLeast), same.symm ▸ less, rfl, good, tried, ?_⟩
    have total := sound.attempts_le
    rw [searchRanges, sum_searchRange (searchEnd_le ..)] at total
    exact total.trans ((Nat.min_le_right ..).trans spanBound)

end Exact

/-! A run of two threads over three nonces; the second thread wins and the first leaves. -/

namespace Sample

def digest : Digest := fun bytes =>
  .replicate 32 (if bytes.length = 84 then 8 - bytes.getD 80 0 else bytes.getD 0 0)

def turns : List ParallelSearch.Turn :=
  [⟨0, false⟩, ⟨1, false⟩, ⟨1, false⟩, ⟨1, false⟩, ⟨1, false⟩, ⟨0, false⟩, ⟨0, true⟩]

def joined : ParallelSearch.State Hash32 :=
  ⟨true, 2, some (5, .replicate 32 3), [⟨3, 5, 4, .done⟩, ⟨5, 6, 6, .done⟩]⟩

end Sample

theorem searchCandidateNonce_exact_sample :
    searchResult Sample.joined = some (5, .replicate 32 3, 2) ∧
      hashLeqTarget (.replicate 32 3) (.replicate 32 3) = true := by
  have ran : (searchCandidateNonce Sample.digest (.replicate 84 0) (.replicate 32 3) 3 3 2).run
      (ParallelSearch.start (searchRanges 3 3 2)) Sample.turns = some Sample.joined := by rfl
  have joined : Sample.joined.Joined := by
    intro t member
    simp only [Sample.joined, List.mem_cons, List.not_mem_nil, or_false] at member
    rcases member with rfl | rfl <;> rfl
  have outcome := (searchCandidateNonce_exact Sample.digest (.replicate 84 0) (.replicate 32 3)
    (by decide) ((Machine.Reaches.start rfl).of_runUnder ran)).2.2 joined
  exact ⟨rfl, (outcome.2 5 (.replicate 32 3) 2 rfl).2.2.2.1⟩

end CsdPool
