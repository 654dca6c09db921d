/-
# Bridge.CandidateRow — one proof of work, one request, one row

The request is written in hex from the verified share and from the submit's own
texts; `RequestAgrees` reads it back as a node would.  The row goes under the hash the
node's answer names, verbatim, and under the request's own hash when it names none or
does not arrive.  So the candidates of one proof of work share a row as long as every
answer names no other text (`AnswersOwnHash`), and the row then carries the hash the
reconciler asks the node about.
-/
import CsdPool.Bridge.Session

namespace CsdPool.Bridge

set_option autoImplicit false

/-! ## The request -/

/-- The request, read back. -/
structure RequestAgrees (digest : Digest) (job : PoolJob) (extranonce1Le : Bytes 4)
    (submit : SubmitParams) (request : BlockCandidateSubmitRequest) : Prop where
  /-- The texts the miner submitted. -/
  submitted : request.jobId = submit.jobId ∧ request.extranonce2Hex = submit.extranonce2Hex ∧
    request.ntimeHex = submit.ntimeHex ∧ request.nonceHex = submit.nonceHex
  /-- The coinbase is the job's around the two extranonces, and hashes to its txid. -/
  coinbase : ∃ extranonce2Le coinbase,
    parseLeU32HexBytes "extranonce2_hex" request.extranonce2Hex = .ok extranonce2Le ∧
    hexDecode request.coinbaseHex = some coinbase ∧
    coinbase = coinbaseBytes job.template.coinbasePrefix
      (composeExtranonce extranonce1Le extranonce2Le) job.template.coinbaseSuffix ∧
    hexEncode (sha256d digest coinbase).toList = request.coinbaseTxidHex
  /-- The txid folds to the root over the job's branch. -/
  merkle : ∃ txid, decodeHash32Hex "coinbase_txid_hex" request.coinbaseTxidHex = .ok txid ∧
    hexEncode (merkleRootFromBranch digest txid job.template.merkleBranch).toList =
      request.merkleRootHex
  /-- The header holds that root, the job's fields and the submitted numbers. -/
  header : ∃ merkle ntime nonce,
    decodeHash32Hex "merkle_root_hex" request.merkleRootHex = .ok merkle ∧
    parseU32Hex "ntime_hex" request.ntimeHex = .ok ntime ∧
    parseU32Hex "nonce_hex" request.nonceHex = .ok nonce ∧
    request.headerHex = hexEncode (header84 job.template.version job.template.prev merkle
      ntime.toUInt64 job.template.bits nonce).toList
  hash : ∃ header, hexDecode request.headerHex = some header ∧
    hexEncode (sha256d digest header).toList = request.hashHex
  canonical : matchesLowerHex 64 request.hashHex = true

theorem requestAgrees {digest : Digest} {job : PoolJob} (miner : Address) {submit : SubmitParams}
    {share : VerifiedShare} {extranonce1Le : Bytes 4} {vardiff : VardiffState} {now : Nat}
    {difficulty : ℚ}
    (verified : verifySubmitForVardiff digest job.template extranonce1Le submit vardiff now =
      .ok (share, difficulty)) :
    ∃ request, blockCandidateSubmitRequest job miner submit share extranonce1Le = .ok request ∧
      RequestAgrees digest job extranonce1Le submit request := by
  obtain ⟨solution, parsed, rfl⟩ := verifySubmitForVardiff_ok verified
  obtain ⟨extranonce2, ntime, nonce⟩ := solutionFromSubmit_ok parsed
  have decoded : parseLeU32HexBytes "extranonce2" submit.extranonce2Hex =
      .ok solution.extranonce2Le := decodeHex_ok_field extranonce2 _
  unfold blockCandidateSubmitRequest
  rw [decoded]
  refine ⟨_, rfl, ⟨rfl, rfl, rfl, rfl⟩, ⟨_, _, extranonce2, hexDecode_hexEncode _, rfl, rfl⟩,
    ⟨_, decodeHex_hexEncode _ _, rfl⟩,
    ⟨_, _, _, decodeHex_hexEncode _ _, ntime, nonce, rfl⟩,
    ⟨_, hexDecode_hexEncode _, rfl⟩, ?_⟩
  have spelled := matchesLowerHex_hexEncode
    (solvedShare digest job.template extranonce1Le solution).hash.toList
  rw [List.Vector.toList_length] at spelled
  exact spelled

/-- **The request, byte for byte.**  The miner's extranonces stand between the two halves of the
coinbase, and each field of the header stands in its place. -/
theorem RequestAgrees.bytes {digest : Digest} {job : PoolJob} {extranonce1Le : Bytes 4}
    {submit : SubmitParams} {request : BlockCandidateSubmitRequest}
    (agrees : RequestAgrees digest job extranonce1Le submit request) :
    (∃ extranonce2Le,
      parseLeU32HexBytes "extranonce2_hex" request.extranonce2Hex = .ok extranonce2Le ∧
      hexDecode request.coinbaseHex = some (job.template.coinbasePrefix ++
        (extranonce1Le.toList ++ extranonce2Le.toList) ++ job.template.coinbaseSuffix)) ∧
    ∃ merkle ntime nonce,
      decodeHash32Hex "merkle_root_hex" request.merkleRootHex = .ok merkle ∧
      parseU32Hex "ntime_hex" request.ntimeHex = .ok ntime ∧
      parseU32Hex "nonce_hex" request.nonceHex = .ok nonce ∧
      hexDecode request.headerHex = some
        ((toLeBytes 4 job.template.version.toNat).toList ++ job.template.prev.toList ++
          merkle.toList ++ (toLeBytes 8 ntime.toUInt64.toNat).toList ++
            (toLeBytes 4 job.template.bits.toNat).toList ++ (toLeBytes 4 nonce.toNat).toList) := by
  obtain ⟨extranonce2Le, coinbase, parsed, decoded, is, -⟩ := agrees.coinbase
  obtain ⟨merkle, ntime, nonce, root, time, number, header⟩ := agrees.header
  refine ⟨⟨extranonce2Le, parsed, ?_⟩, merkle, ntime, nonce, root, time, number, ?_⟩
  · rw [decoded, is, coinbaseBytes_composeExtranonce]
  · rw [header, hexDecode_hexEncode, toList_header84]

/-! ## The row -/

/-- The text a candidate's row is recorded under. -/
def recordedHash (hashHex : String) (answer : Except String SubmitBlockResponse) : String :=
  match answer with
  | .ok response => response.hash.getD hashHex
  | .error _ => hashHex

/-- The node's answer names no hash, or the request's in the request's spelling. -/
def AnswersOwnHash (hashHex : String) (answer : Except String SubmitBlockResponse) : Prop :=
  ∀ response, answer = .ok response → response.hash = none ∨ response.hash = some hashHex

theorem recordedHash_eq_iff {hashHex : String} {answer : Except String SubmitBlockResponse} :
    recordedHash hashHex answer = hashHex ↔ AnswersOwnHash hashHex answer := by
  unfold recordedHash AnswersOwnHash
  cases answer with
  | error err => simp
  | ok response =>
      cases named : response.hash with
      | none => simp [named]
      | some hash => simp [named]

/-- A record of a candidate with this hash whose answer named no other. -/
def OwnRecord (hashHex : String) (record : BlockCandidateRecord) : Prop :=
  ∃ miner submission observation answer, submission.candidate.hashHex = hashHex ∧
    AnswersOwnHash hashHex answer ∧
    record = blockCandidateRecord miner submission (reportedResponse observation hashHex answer)

theorem hashHex_blockCandidateRecord {hashHex : String} {submission : BlockCandidateSubmission}
    (own : submission.candidate.hashHex = hashHex) (miner : Address)
    (observation : CandidateObservation) (answer : Except String SubmitBlockResponse) :
    (blockCandidateRecord miner submission (reportedResponse observation hashHex answer)).hashHex =
      recordedHash hashHex answer := by
  subst own
  cases answer <;> rfl

/-- Recording one candidate after another; a call that fails writes nothing. -/
def recordAll (db : Db) (records : List (BlockCandidateRecord × Nat)) : Db :=
  records.foldl (fun db (record, now) =>
    match db.recordBlockCandidate record now with
    | .ok (_, db) => db
    | .error _ => db) db

/-- A row that recording adds is the record's own. -/
theorem rows_recordBlockCandidate {db db' : Db} {record : BlockCandidateRecord} {now : Nat}
    {inserted : Bool} (ok : db.recordBlockCandidate record now = .ok (inserted, db'))
    {row : BlockRow} (member : row ∈ db'.blocks.rows) :
    row ∈ db.blocks.rows ∨ row.hash = record.hashHex := by
  have found := Theory.Table.find?_of_mem member
  rw [Db.find?_recordBlockCandidate ok] at found
  by_cases added : record.hashHex = row.hash ∧ db.blocks.find? row.hash = none
  · exact .inr added.1.symm
  · exact .inl (Theory.Table.mem_of_find? ((if_neg added).symm.trans found))

theorem rows_recordAll {hashHex : String} {records : List (BlockCandidateRecord × Nat)}
    (own : ∀ recorded ∈ records, OwnRecord hashHex recorded.1) (db : Db) :
    ∀ row ∈ (recordAll db records).blocks.rows, row ∈ db.blocks.rows ∨ row.hash = hashHex := by
  induction records generalizing db with
  | nil => exact fun row member => .inl member
  | cons recorded rest ih =>
      intro row member
      rw [recordAll, List.foldl_cons] at member
      have later := ih (fun recorded' inRest => own recorded' (List.mem_cons_of_mem _ inRest)) _
        row member
      rcases later with before | new
      · obtain ⟨miner, submission, observation, answer, same, answers, built⟩ :=
          own recorded List.mem_cons_self
        cases ran : db.recordBlockCandidate recorded.1 recorded.2 with
        | error err =>
            dsimp only at before
            rw [ran] at before
            exact .inl before
        | ok result =>
            dsimp only at before
            rw [ran] at before
            rcases rows_recordBlockCandidate ran before with old | added
            · exact .inl old
            · rw [built, hashHex_blockCandidateRecord same, recordedHash_eq_iff.2 answers] at added
              exact .inr added
      · exact .inr new

/-- The unique index. -/
theorem rows_under_hash (db : Db) (hashHex : String) :
    (db.blocks.rows.filter fun row => row.hash = hashHex).length ≤ 1 := by
  have keys : ((db.blocks.rows.filter fun row => row.hash = hashHex).map
      Theory.Keyed.key).Nodup := (db.blocks.filter fun row => row.hash = hashHex).unique
  have same : ∀ row ∈ db.blocks.rows.filter fun row => row.hash = hashHex, row.hash = hashHex := by
    intro row member
    simpa using (List.mem_filter.1 member).2
  rcases here : db.blocks.rows.filter fun row => row.hash = hashHex with _ | ⟨a, _ | ⟨b, rest⟩⟩
  · rw [here]
    exact Nat.zero_le _
  · rw [here]
    exact Nat.le_refl _
  · rw [here] at keys same
    rw [List.map_cons, List.map_cons, List.nodup_cons] at keys
    have equal : a.hash = b.hash := (same a (by simp)).trans (same b (by simp)).symm
    exact absurd (List.mem_cons.2 (.inl equal)) keys.1

/-- **A candidate's request and its rows.**  The request agrees with the verified share.
A record goes under the hash its answer names and under the request's own otherwise; the
records of one proof of work whose answers name no other text make one row at most, and
that row carries the request's hash. -/
theorem candidate_request_and_row {digest : Digest} {job : PoolJob} (miner : Address)
    {submit : SubmitParams} {share : VerifiedShare} {extranonce1Le : Bytes 4}
    {vardiff : VardiffState} {now : Nat} {difficulty : ℚ}
    (verified : verifySubmitForVardiff digest job.template extranonce1Le submit vardiff now =
      .ok (share, difficulty)) :
    ∃ request, blockCandidateSubmitRequest job miner submit share extranonce1Le = .ok request ∧
      RequestAgrees digest job extranonce1Le submit request ∧
      (∀ miner' submission observation answer, submission.candidate.hashHex = request.hashHex →
        let record := blockCandidateRecord miner' submission
          (reportedResponse observation request.hashHex answer)
        record.hashHex = recordedHash request.hashHex answer ∧
          (record.hashHex = request.hashHex ↔ AnswersOwnHash request.hashHex answer)) ∧
      ∀ db records, (∀ recorded ∈ records, OwnRecord request.hashHex recorded.1) →
        (∀ row ∈ (recordAll db records).blocks.rows,
          row ∈ db.blocks.rows ∨ row.hash = request.hashHex) ∧
        ((recordAll db records).blocks.rows.filter fun row =>
          row.hash = request.hashHex).length ≤ 1 := by
  obtain ⟨request, built, agrees⟩ := requestAgrees miner verified
  refine ⟨request, built, agrees, fun miner' submission observation answer own => ?_,
    fun db records own => ⟨rows_recordAll own db, rows_under_hash _ _⟩⟩
  have recorded := hashHex_blockCandidateRecord own miner' observation answer
  exact ⟨recorded, by rw [recorded]; exact recordedHash_eq_iff⟩

/-- The sample's block, whose node names no hash. -/
theorem sample_request_and_row : ∃ request,
    blockCandidateSubmitRequest Sample.job Sample.miner (Sample.submit "0a0b0c0b") Sample.share
      Sample.session.extranonce1Le = .ok request ∧
    RequestAgrees Theory.Sha256.digest Sample.job Sample.session.extranonce1Le
      (Sample.submit "0a0b0c0b") request := by
  have spells : solutionFromSubmit (Sample.submit "0a0b0c0b") = .ok Sample.solution := by decide
  obtain ⟨request, built, agrees, -⟩ :=
    candidate_request_and_row Sample.miner (Sample.verified spells)
  exact ⟨request, built, agrees⟩

/-- The database with the sample's job. -/
def jobStored : Db :=
  (Db.migrated.upsertJob (jobRecordFromPoolJob Sample.job .tipChange)).toOption.getD .migrated

/-- **One proof of work under two keys**: the node's answer to the sample's block names no
hash, or names it after `0x`. -/
theorem two_rows_for_one_proof_of_work :
    ∃ (request : BlockCandidateSubmitRequest) (named : String),
      verifySubmitForVardiff Theory.Sha256.digest Sample.job.template Sample.session.extranonce1Le
          (Sample.submit "0a0b0c0b") Sample.session.vardiff Sample.session.now =
        .ok (Sample.share, 1) ∧
      blockCandidateSubmitRequest Sample.job Sample.miner (Sample.submit "0a0b0c0b") Sample.share
        Sample.session.extranonce1Le = .ok request ∧
      let record := fun hash => blockCandidateRecord Sample.miner ⟨request, none⟩
        (reportedResponse ⟨0, 0, 0⟩ request.hashHex (.ok ⟨true, hash, .object []⟩))
      (record (some named)).hashHex ≠ request.hashHex ∧
        (recordAll jobStored [(record none, 0), (record (some named), 0)]).blocks.rows.length =
          2 := by
  refine ⟨_, "0x" ++ hexEncode Sample.share.hash.toList, Sample.verified (by decide), rfl, ?_⟩
  decide +kernel

end CsdPool.Bridge
