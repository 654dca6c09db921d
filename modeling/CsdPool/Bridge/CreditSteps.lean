/-
# Bridge.CreditSteps — what a step does to the credits

A step of a session leaves the database and both histories alone but in two places: a submit
whose texts the session has seen is answered as a duplicate (`submit_cases`), and a verified
submit is inserted, answered as a duplicate, or neither (`persist_persisted`).

From that `Sound`: the share rows are the credited ones in their order, each was verified at a
difficulty its session could have, and so is what waits for the database.
-/
import CsdPool.Bridge.Crediting

namespace CsdPool.Bridge

open Theory (F64 Keyed Table Machine)

set_option autoImplicit false

variable {digest : Digest} {jobs : JobBook} {config : VardiffConfig} {s s' : CreditState}

/-! ## The sessions of a state -/

/-- `session` stands where it stood, or is `session'`. -/
theorem mem_put {session' session : StratumSession}
    (member : session ∈ (s.put session').sessions.rows) :
    session = session' ∨ session ∈ s.sessions.rows := by
  rcases Table.mem_put.1 member with same | ⟨before, -⟩
  · exact .inl same
  · exact .inr before

theorem mem_close {session' session : StratumSession}
    (member : session ∈ (s.close session').sessions.rows) : session ∈ s.sessions.rows :=
  (List.mem_filter.1 member).1

theorem mem_putVardiff {session' session : StratumSession} {vardiff : Option Vardiff}
    (member : session ∈ (s.putVardiff session' vardiff).sessions.rows) :
    (∃ v, vardiff = some v ∧ session = { session' with vardiff := v }) ∨
      session ∈ s.sessions.rows := by
  unfold CreditState.putVardiff at member
  split at member
  · rename_i v
    rcases mem_put member with same | before
    · exact .inl ⟨v, rfl, same⟩
    · exact .inr before
  · exact .inr (mem_close member)

theorem putVardiff_books {session : StratumSession} {vardiff : Option Vardiff} :
    (s.putVardiff session vardiff).db = s.db ∧
      (s.putVardiff session vardiff).credited = s.credited ∧
        (s.putVardiff session vardiff).duplicates = s.duplicates := by
  unfold CreditState.putVardiff
  split
  · exact ⟨rfl, rfl, rfl⟩
  · exact ⟨rfl, rfl, rfl⟩

/-! ## Submits -/

/-- What was verified, at some difficulty its session could have. -/
structure Verified (digest : Digest) (jobs : JobBook) (config : VardiffConfig)
    (extranonce1Le : Bytes 4) (verified : VerifiedSubmit) : Prop where
  job : jobs.find verified.submit.jobId = some verified.job
  call : ∃ v now, (vardiffMachine config).Reachable v ∧
    verifySubmitForVardiff digest verified.job.template extranonce1Le verified.submit v.view now =
      .ok (verified.share, verified.difficulty)

/-- What is known of a session: its difficulty is one that can be reached, and the submit in its
hand was verified at such a one. -/
structure SessionSound (digest : Digest) (jobs : JobBook) (config : VardiffConfig)
    (session : StratumSession) : Prop where
  vardiff : (vardiffMachine config).Reachable session.vardiff
  pending : ∀ verified, session.pending = some verified →
    Verified digest jobs config session.extranonce1Le verified

/-- A submit changes one session, or is answered as a duplicate of texts the session has seen. -/
theorem submit_cases {session : StratumSession} {miner : Address} {submit : SubmitParams}
    {stale : Bool} {now : Nat} (sound : SessionSound digest jobs config session) :
    s.submit digest jobs session miner submit stale now = s ∨
      (session.seenShares.contains (ShareKey.fromSubmit submit) = true ∧
        stale = false ∧
        s.submit digest jobs session miner submit stale now =
          { s with duplicates := s.duplicates ++ [⟨session.extranonce1Le, submit⟩] }) ∨
      ∃ session', SessionSound digest jobs config session' ∧
        s.submit digest jobs session miner submit stale now = s.put session' := by
  unfold CreditState.submit
  split
  · exact .inl rfl
  · rename_i admitted
    have timely : stale = false := by
      rw [Bool.not_eq_true, Bool.or_eq_false_iff] at admitted
      exact admitted.2
    split
    · exact .inl rfl
    · rename_i job found
      split
      · rename_i seen
        exact .inr (.inl ⟨seen, timely, rfl⟩)
      · dsimp only
        split
        · refine .inr (.inr ⟨{ session with seenShares := _ }, ?_, rfl⟩)
          exact ⟨sound.vardiff, sound.pending⟩
        · rename_i share difficulty verified
          refine .inr (.inr ⟨{ session with seenShares := _, pending := some _ }, ?_, rfl⟩)
          refine ⟨sound.vardiff, ?_⟩
          intro pending here
          cases here
          exact ⟨found, session.vardiff, now, sound.vardiff, verified⟩

/-! ## The database -/

theorem upsertJob_shares {db db' : Db} {job : JobRecord} (upserted : db.upsertJob job = .ok db') :
    db'.shares = db.shares := by
  rw [Db.upsertJob_ok upserted]

/-- What became of a verified submit at the database. -/
inductive Persisted (s : CreditState) (credit : Credit) (s' : CreditState) : Prop
  | nothing (shares : s'.db.shares = s.db.shares) (credited : s'.credited = s.credited)
      (duplicates : s'.duplicates = s.duplicates)
  | credited (admitted : Db.shareAdmitted credit.verified.record = true)
      (fresh : s.db.shares.find? (Keyed.key credit.verified.record) = none)
      (rows : s'.db.shares.rows = s.db.shares.rows ++ [credit.verified.record.row])
      (credited : s'.credited = s.credited ++ [credit]) (duplicates : s'.duplicates = s.duplicates)
  | duplicate (admitted : Db.shareAdmitted credit.verified.record = true)
      (taken : s.db.shares.find? (Keyed.key credit.verified.record) ≠ none)
      (shares : s'.db.shares = s.db.shares) (credited : s'.credited = s.credited)
      (duplicates : s'.duplicates =
        s.duplicates ++ [⟨credit.extranonce1Le, credit.verified.submit⟩])

/-- Whatever the fault, one of these has become of the submit. -/
theorem persist_persisted {session : StratumSession} {verified : VerifiedSubmit} {fault : Fault}
    {now : Nat} :
    Persisted s ⟨session.extranonce1Le, verified⟩ (s.persist session verified fault now) := by
  unfold CreditState.persist
  dsimp only
  split
  · exact .nothing rfl rfl rfl
  · rename_i db upserted
    have same := upsertJob_shares upserted
    split
    · exact .nothing same rfl rfl
    · rename_i inserted written ok
      obtain ⟨rfl, answer, admitted⟩ := Db.insertShare_ok ok
      rw [same] at answer
      by_cases fresh : s.db.shares.find? (Keyed.key verified.record) = none
      · obtain ⟨rows, hit⟩ := Table.insert_of_fresh (r := verified.record.row) fresh
        rw [hit] at answer
        rw [← same] at rows
        subst answer
        cases fault with
        | none =>
            refine .credited admitted fresh (rows.trans (by rw [same])) rfl ?_
            exact putVardiff_books.2.2
        | failed => exact .nothing same rfl rfl
        | unacknowledged => exact .credited admitted fresh (rows.trans (by rw [same])) rfl rfl
      · have kept : s.db.shares.insert verified.record.row = (s.db.shares, false) :=
          Table.insert_of_taken fresh
        rw [kept] at answer
        subst answer
        have shares : (db.shares.insert verified.record.row).1 = s.db.shares := by
          rw [same, kept]
        cases fault with
        | none => exact .duplicate admitted fresh shares rfl rfl
        | failed => exact .nothing same rfl rfl
        | unacknowledged => exact .nothing shares rfl rfl

/-- Whom a call leaves in the table of sessions. -/
theorem mem_persist {session other : StratumSession} {verified : VerifiedSubmit} {fault : Fault}
    {now : Nat} (member : other ∈ (s.persist session verified fault now).sessions.rows) :
    other ∈ s.sessions.rows ∨ other = { session with pending := none } ∨
      ∃ v, session.vardiff.recordAcceptedShare now = some v ∧
        other = { session with pending := none, acceptedShareSeen := true, vardiff := v } := by
  unfold CreditState.persist at member
  dsimp only at member
  split at member
  · exact .inl (mem_close member)
  · split at member
    · exact .inl (mem_close member)
    · split at member
      · exact .inl (mem_close member)
      · exact .inl (mem_close member)
      · split at member
        · rcases mem_putVardiff member with ⟨v, recorded, same⟩ | before
          · exact .inr (.inr ⟨v, recorded, same⟩)
          · exact .inl before
        · rcases mem_put member with same | before
          · exact .inr (.inl same)
          · exact .inl before

/-! ## Steps -/

/-- The three kinds of step: one that leaves the books, one that refuses texts the session has
seen, and one that takes a verified submit to the database. -/
inductive Stepped (digest : Digest) (jobs : JobBook) (config : VardiffConfig) (s : CreditState)
    (event : CreditEvent) (s' : CreditState) : Prop
  | quiet (db : s'.db = s.db) (credited : s'.credited = s.credited)
      (duplicates : s'.duplicates = s.duplicates)
      (sessions : ∀ session ∈ s'.sessions.rows,
        session ∈ s.sessions.rows ∨ SessionSound digest jobs config session)
  | refused {id : Nat} {session : StratumSession} {submit : SubmitParams} {now : Nat}
      (is : event = .submit id submit false now) (found : s.sessions.find? id = some session)
      (seen : session.seenShares.contains (ShareKey.fromSubmit submit) = true)
      (shape : s' = { s with duplicates := s.duplicates ++ [⟨session.extranonce1Le, submit⟩] })
  | persisted {id : Nat} {session : StratumSession} {verified : VerifiedSubmit} {fault : Fault}
      {now : Nat} (is : event = .persist id fault now) (found : s.sessions.find? id = some session)
      (here : session.pending = some verified) (shape : s' = s.persist session verified fault now)

theorem Stepped.put {session : StratumSession} {event : CreditEvent}
    (here : SessionSound digest jobs config session) :
    Stepped digest jobs config s event (s.put session) := by
  refine .quiet (by rfl) (by rfl) (by rfl) ?_
  intro other member
  rcases mem_put member with rfl | before
  · exact .inr here
  · exact .inl before

/-- Every step has one of the shapes; the later proofs take them apart and do not unfold the step.
-/
theorem step_stepped {event : CreditEvent}
    (sound : ∀ session ∈ s.sessions.rows, SessionSound digest jobs config session)
    (stepped : s.step digest jobs config event = some s') :
    Stepped digest jobs config s event s' := by
  unfold CreditState.step at stepped
  cases event with
  | start daemon =>
      cases stepped
      refine .quiet (by rfl) (by rfl) (by rfl) ?_
      intro session member
      exact .inl (Table.mem_filter.1 member).1
  | connect daemon =>
      dsimp only at stepped
      split at stepped
      · rename_i daemon vardiff _ new
        cases stepped
        refine .quiet (by rfl) (by rfl) (by rfl) ?_
        intro session member
        rcases Table.mem_put.1 member with rfl | ⟨before, -⟩
        · exact .inr ⟨.start new, fun _ none => (by cases none)⟩
        · exact .inl before
      · cases stepped
  | disconnect session =>
      obtain ⟨session, -, rfl⟩ := Option.map_eq_some_iff.1 stepped
      refine .quiet (by rfl) (by rfl) (by rfl) ?_
      intro other member
      exact .inl (mem_close member)
  | authorize session username =>
      dsimp only at stepped
      split at stepped
      · rename_i session worker found _
        have mine := sound session (Table.mem_of_find? found)
        split at stepped
        · cases stepped
        · cases stepped
          exact .put ⟨mine.vardiff, mine.pending⟩
      · cases stepped
  | suggestDifficulty session suggested now =>
      dsimp only at stepped
      split at stepped
      · rename_i session found
        have mine := sound session (Table.mem_of_find? found)
        split at stepped
        · cases stepped
        · cases stepped
          refine .quiet putVardiff_books.1 putVardiff_books.2.1 putVardiff_books.2.2 ?_
          intro other member
          rcases mem_putVardiff member with ⟨v, applied, rfl⟩ | before
          · refine .inr ⟨?_, mine.pending⟩
            exact mine.vardiff.next (e := VardiffEvent.suggestedDifficulty suggested now) trivial
              applied
          · exact .inl before
      · cases stepped
  | submit session submit stale now =>
      dsimp only at stepped
      split at stepped
      · rename_i session found
        have mine := sound session (Table.mem_of_find? found)
        split at stepped
        · cases stepped
          rcases submit_cases (s := s) mine with same | ⟨seen, timely, same⟩ | ⟨session', here, same⟩
          · rw [same]
            exact .quiet rfl rfl rfl fun _ member => .inl member
          · exact .refused (by rw [timely]) found seen same
          · rw [same]
            exact .put here
        · cases stepped
      · cases stepped
  | persist session fault now =>
      dsimp only at stepped
      split at stepped
      · rename_i session found
        obtain ⟨verified, here, rfl⟩ := Option.map_eq_some_iff.1 stepped
        exact .persisted rfl found here rfl
      · cases stepped

/-! ## The invariant -/

/-- The invariant of the machine: the sessions are sound, and the rows are those of the shares that
were credited. -/
structure Sound (digest : Digest) (jobs : JobBook) (config : VardiffConfig) (s : CreditState) :
    Prop where
  sessions : ∀ session ∈ s.sessions.rows, SessionSound digest jobs config session
  credited : ∀ credit ∈ s.credited, Verified digest jobs config credit.extranonce1Le credit.verified ∧
    Db.shareAdmitted credit.verified.record = true
  rows : s.db.shares.rows = s.credited.map fun credit => credit.verified.record.row

theorem Sound.of_sessions (sound : Sound digest jobs config s) (db : s'.db = s.db)
    (credited : s'.credited = s.credited)
    (sessions : ∀ session ∈ s'.sessions.rows,
      session ∈ s.sessions.rows ∨ SessionSound digest jobs config session) :
    Sound digest jobs config s' := by
  refine ⟨?_, ?_, ?_⟩
  · intro session member
    rcases sessions session member with before | here
    · exact sound.sessions session before
    · exact here
  · rw [credited]
    exact sound.credited
  · rw [db, credited]
    exact sound.rows

theorem Sound.persist (sound : Sound digest jobs config s) {session : StratumSession}
    {verified : VerifiedSubmit} {fault : Fault} {now : Nat} (member : session ∈ s.sessions.rows)
    (here : session.pending = some verified) :
    Sound digest jobs config (s.persist session verified fault now) := by
  have mine := sound.sessions session member
  have sessions : ∀ other ∈ (s.persist session verified fault now).sessions.rows,
      SessionSound digest jobs config other := by
    intro other inside
    rcases mem_persist inside with before | rfl | ⟨v, recorded, rfl⟩
    · exact sound.sessions other before
    · exact ⟨mine.vardiff, fun _ none => (by cases none)⟩
    · refine ⟨mine.vardiff.next (e := VardiffEvent.acceptedShare now) trivial recorded, ?_⟩
      intro _ none
      cases none
  have outcome : Persisted s ⟨session.extranonce1Le, verified⟩
      (s.persist session verified fault now) := persist_persisted
  cases outcome with
  | nothing shares credited _ =>
      exact ⟨sessions, by rw [credited]; exact sound.credited,
        by rw [shares, credited]; exact sound.rows⟩
  | credited admitted _ rows credited _ =>
      refine ⟨sessions, ?_, ?_⟩
      · rw [credited]
        intro credit inside
        rcases List.mem_append.1 inside with before | new
        · exact sound.credited credit before
        · rw [List.mem_singleton.1 new]
          exact ⟨mine.pending verified here, admitted⟩
      · rw [rows, credited, List.map_append, sound.rows]
        rfl
  | duplicate _ _ shares credited _ =>
      exact ⟨sessions, by rw [credited]; exact sound.credited,
        by rw [shares, credited]; exact sound.rows⟩

theorem Sound.step {event : CreditEvent} (sound : Sound digest jobs config s)
    (stepped : s.step digest jobs config event = some s') : Sound digest jobs config s' := by
  cases step_stepped sound.sessions stepped with
  | quiet db credited _ sessions => exact sound.of_sessions db credited sessions
  | refused _ _ _ shape =>
      subst shape
      exact sound.of_sessions (by rfl) (by rfl) fun _ member => .inl member
  | persisted _ found here shape =>
      subst shape
      exact sound.persist (Table.mem_of_find? found) here

/-- It holds in every state that is reached. -/
theorem sound_known (reached : (creditMachine digest jobs config).Reachable s) :
    Sound digest jobs config s := by
  apply reached.invariant
  · rintro _ rfl
    exact ⟨fun session member => (by cases member), fun credit member => (by cases member), rfl⟩
  · intro s event s' _ sound _ stepped
    exact sound.step stepped

end CsdPool.Bridge
