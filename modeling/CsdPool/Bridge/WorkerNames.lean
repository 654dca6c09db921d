/-
# Bridge.WorkerNames — one worker under two parsers

A miner's user name is parsed when it authorizes and again with every submit.  `mining.authorize`
trims it, drops one `0x` and folds the case before it looks for the address; the worker's name is
what follows the first point, in its own case.  A submit is compared with the address after the
same folding but untrimmed, and its worker's name is read off by removing the address, as
normalized, from the text as sent.

So the two readings agree exactly on the user names that are written without blanks around them
and, where they name a worker, with the address in its normal form (`workers_agree_iff`); any
other spelling is refused at its first submit, or its shares and blocks go to the worker
`default`.
-/
import CsdPool.Bridge.Crediting
import CsdPool.Bridge.Candidate
import Mathlib.Data.List.TakeWhile

namespace CsdPool.Bridge

set_option autoImplicit false

/-- The worker's name of `mining.authorize`, from its user name. -/
def parseAuthorizeWorkerName (username : String) : String :=
  (((splitOnce '.' (trim username)).map Prod.snd).filter validWorkerName).getD "default"

/-- A submit under the user name of the session is accepted, and its share row and its block
record name the worker of the session row. -/
structure WorkersAgree (address : Address) (username : String) : Prop where
  accepted : authorizedSubmitWorker address username = true
  sameWorker : workerNameFromSubmit address username = parseAuthorizeWorkerName username
  shareRow : ∀ (sessionId : Option String) (submit : SubmitParams) (share : VerifiedShare)
    (difficulty : ℚ), submit.workerName = username →
      (shareRecordFromSubmit sessionId address submit share difficulty).workerName =
        parseAuthorizeWorkerName username
  blockRecord : ∀ (job : PoolJob) (submit : SubmitParams) (share : VerifiedShare)
    (extranonce1Le : Bytes 4) (request : BlockCandidateSubmitRequest),
      submit.workerName = username →
      blockCandidateSubmitRequest job address submit share extranonce1Le = .ok request →
        request.workerName = parseAuthorizeWorkerName username

/-- No blanks around it, and the address of a named worker in its normal form. -/
def PlainUsername (username : String) : Prop :=
  trim username = username ∧
    ∀ spelled worker, splitOnce '.' username = some (spelled, worker) →
      matchesLowerHex 40 spelled = true ∨ worker = "default"

/-! ## Characters -/

/-- The characters of a worker's name. -/
def workerChar (c : Char) : Bool :=
  isAsciiAlphanumeric c || c == '_' || c == '-' || c == '.'

/-- What the proofs below need of single characters, over the ASCII ones. -/
theorem worker_table : ∀ n : Fin 128,
    ((Char.ofNat n).toLower = '.' → Char.ofNat n = '.') ∧
    (isAsciiHexdigit (Char.ofNat n).toLower = true →
      isLowerHexdigit (Char.ofNat n).toLower = true) ∧
    (workerChar (Char.ofNat n).toLower = true → workerChar (Char.ofNat n) = true) ∧
    (workerChar (Char.ofNat n) = true → isWhitespace (Char.ofNat n) = false) := by
  decide

theorem point_of_toLower {c : Char} (point : c.toLower = '.') : c = '.' := by
  by_cases ascii : c.toNat < 128
  · obtain ⟨n, rfl⟩ := ascii_cases ascii
    exact (worker_table n).1 point
  · rwa [toLower_of_wide ascii] at point

theorem isLowerHexdigit_toLower {c : Char} (digit : isAsciiHexdigit c.toLower = true) :
    isLowerHexdigit c.toLower = true := by
  by_cases ascii : c.toNat < 128
  · obtain ⟨n, rfl⟩ := ascii_cases ascii
    exact (worker_table n).2.1 digit
  · rw [toLower_of_wide ascii] at digit
    exact absurd (isAsciiHexdigit_lt digit) ascii

theorem workerChar_of_toLower {c : Char} (allowed : workerChar c.toLower = true) :
    workerChar c = true := by
  by_cases ascii : c.toNat < 128
  · obtain ⟨n, rfl⟩ := ascii_cases ascii
    exact (worker_table n).2.2.1 allowed
  · rwa [toLower_of_wide ascii] at allowed

theorem not_blank_of_workerChar {c : Char} (allowed : workerChar c = true) :
    isWhitespace c = false := by
  have ascii : c.toNat < 128 := by
    simp only [workerChar, isAsciiAlphanumeric, Bool.or_eq_true, Bool.and_eq_true,
      decide_eq_true_eq, beq_iff_eq, Char.le_def, UInt32.le_iff_toNat_le] at allowed
    rcases allowed with (((((digit | lower) | upper) | rfl) | rfl) | rfl)
    · exact Nat.lt_of_le_of_lt digit.2 (by decide)
    · exact Nat.lt_of_le_of_lt lower.2 (by decide)
    · exact Nat.lt_of_le_of_lt upper.2 (by decide)
    · decide
    · decide
    · decide
  obtain ⟨n, rfl⟩ := ascii_cases ascii
  exact (worker_table n).2.2.2 allowed

/-! ## Splitting and folding -/

/-- A split is at the first point. -/
theorem splitOnce_iff {c : Char} {text before after : String} :
    splitOnce c text = some (before, after) ↔
      text.toList = before.toList ++ c :: after.toList ∧ c ∉ before.toList := by
  unfold splitOnce
  constructor
  · intro split
    cases tail : text.toList.dropWhile fun d => d ≠ c with
    | nil =>
        rw [tail] at split
        cases split
    | cons d rest =>
        rw [tail] at split
        cases split
        have stopped := List.head?_dropWhile_not (fun d => decide (d ≠ c)) text.toList
        rw [tail] at stopped
        have here : d = c := by simpa using stopped
        have whole := List.takeWhile_append_dropWhile (p := fun d => decide (d ≠ c))
          (l := text.toList)
        rw [String.toList_ofList, String.toList_ofList]
        refine ⟨?_, ?_⟩
        · rw [← here, ← tail, here]
          exact whole.symm
        · intro member
          have passed := List.mem_takeWhile_imp member
          simp at passed
  · rintro ⟨whole, first⟩
    have passed : ∀ d ∈ before.toList, decide (d ≠ c) = true := by
      intro d member
      rw [decide_eq_true_eq]
      rintro rfl
      exact first member
    rw [whole, List.dropWhile_append_of_pos passed, List.takeWhile_append_of_pos passed]
    simp

/-- Only a text without a point is not split. -/
theorem splitOnce_none {c : Char} {text : String} :
    splitOnce c text = none ↔ c ∉ text.toList := by
  constructor
  · intro unsplit member
    obtain ⟨before, after, whole, first⟩ := List.eq_append_cons_of_mem member
    have split : splitOnce c text = some (String.ofList before, String.ofList after) := by
      rw [splitOnce_iff, String.toList_ofList, String.toList_ofList]
      exact ⟨whole, first⟩
    rw [unsplit] at split
    cases split
  · intro missing
    cases split : splitOnce c text with
    | none => rfl
    | some halves =>
        obtain ⟨whole, -⟩ := splitOnce_iff.1 split
        rw [whole] at missing
        exact absurd (by simp) missing

/-- Normalizing drops the mark and folds the rest, character by character. -/
theorem toList_normalizedUsername (username : String) :
    (normalizedUsername username).toList = (stripMark username).toList.map Char.toLower := by
  unfold normalizedUsername toAsciiLowercase
  rw [String.toList_ofList]
  rfl

/-! ## What authorization reads -/

/-- A name that is valid once folded was valid as written. -/
theorem validWorkerName_of_toLower {name lower : String}
    (folded : lower.toList = name.toList.map Char.toLower)
    (valid : validWorkerName lower = true) : validWorkerName name = true := by
  unfold validWorkerName at valid ⊢
  rw [folded, List.isEmpty_map, List.length_map, List.all_map] at valid
  rw [Bool.and_eq_true_iff] at valid ⊢
  refine ⟨valid.1, List.all_eq_true.2 fun c member => ?_⟩
  exact workerChar_of_toLower (List.all_eq_true.1 valid.2 c member)

/-- The pieces of a user name that authorizes: the address between a mark and its worker. -/
structure Authorized (username : String) (address : Address) (mark digits : List Char)
    (worker : Option String) : Prop where
  lowerHex : matchesLowerHex 40 address = true
  folded : address.toList = digits.map Char.toLower
  marked : mark = [] ∨ mark = ['0', 'x'] ∨ mark = ['0', 'X']
  written : (trim username).toList = mark ++ digits ++
    worker.elim [] fun name => '.' :: name.toList
  normalized : (normalizedUsername (trim username)).toList = address.toList ++
    worker.elim [] fun name => '.' :: name.toList.map Char.toLower
  valid : ∀ name, worker = some name → validWorkerName (toAsciiLowercase name) = true

variable {username : String} {address : Address} {mark digits : List Char} {worker : Option String}

theorem matchesLowerHex_of_folded (folded : address.toList = digits.map Char.toLower)
    (legal : validAddr20 address = true) : matchesLowerHex 40 address = true := by
  unfold validAddr20 at legal
  rw [Bool.and_eq_true_iff] at legal
  unfold matchesLowerHex
  rw [Bool.and_eq_true_iff]
  refine ⟨legal.1, List.all_eq_true.2 fun c member => ?_⟩
  have digit := List.all_eq_true.1 legal.2 c member
  rw [folded] at member
  obtain ⟨d, -, rfl⟩ := List.mem_map.1 member
  exact isLowerHexdigit_toLower digit

/-- Whatever authorizes is a mark, the forty digits of the address and perhaps a worker. -/
theorem authorized_of_parsed (parsed : parseAuthorizeWorker username = some address) :
    ∃ mark digits worker, Authorized username address mark digits worker := by
  obtain ⟨mark, marked, split⟩ := stripMark_split (trim username)
  have folds := toList_normalizedUsername (trim username)
  unfold parseAuthorizeWorker at parsed
  dsimp only at parsed
  cases halves : splitOnce '.' (normalizedUsername (trim username)) with
  | none =>
      rw [halves] at parsed
      dsimp only at parsed
      split at parsed
      · rename_i legal
        have same : normalizedUsername (trim username) = address := Option.some.inj parsed
        rw [same] at folds legal
        exact ⟨mark, _, none, matchesLowerHex_of_folded folds legal, folds, marked,
          by simpa using split, by simp [same], fun name named => by cases named⟩
      · cases parsed
  | some pair =>
      obtain ⟨first, rest⟩ := pair
      rw [halves] at parsed
      dsimp only at parsed
      split at parsed
      · rename_i legal
        have same : first = address := Option.some.inj parsed
        subst same
        rw [Bool.and_eq_true_iff] at legal
        obtain ⟨whole, -⟩ := splitOnce_iff.1 halves
        rw [folds] at whole
        obtain ⟨digits, tail, apart, foldedDigits, foldedTail⟩ := List.map_eq_append_iff.1 whole
        obtain ⟨point, name, rfl, isPoint, foldedName⟩ := List.map_eq_cons_iff.1 foldedTail
        have lowered : toAsciiLowercase (String.ofList name) = rest := by
          rw [toAsciiLowercase, String.toList_ofList, foldedName, String.ofList_toList]
        refine ⟨mark, digits, some (String.ofList name),
          matchesLowerHex_of_folded foldedDigits.symm legal.1, foldedDigits.symm, marked, ?_, ?_, ?_⟩
        · rw [split, apart, point_of_toLower isPoint]
          simp
        · rw [folds, whole, ← foldedName]
          simp
        · intro name' named
          cases named
          rw [lowered]
          exact legal.2
      · cases parsed

/-- The worker's name is valid in its own case too. -/
theorem Authorized.validName {name : String}
    (authorized : Authorized username address mark digits (some name)) :
    validWorkerName name = true :=
  validWorkerName_of_toLower (by rw [toAsciiLowercase, String.toList_ofList])
    (authorized.valid name rfl)

theorem Authorized.pointless (authorized : Authorized username address mark digits worker) :
    '.' ∉ mark ++ digits := by
  intro member
  rcases List.mem_append.1 member with inMark | inDigits
  · rcases authorized.marked with rfl | rfl | rfl
    · cases inMark
    · exact absurd inMark (by decide)
    · exact absurd inMark (by decide)
  · have folded : Char.toLower '.' ∈ address.toList := by
      rw [authorized.folded]
      exact List.mem_map_of_mem inDigits
    have digit := List.all_eq_true.1 (Bool.and_eq_true_iff.1 authorized.lowerHex).2 _ folded
    exact absurd digit (by decide)

theorem Authorized.parseName (authorized : Authorized username address mark digits worker) :
    parseAuthorizeWorkerName username = worker.getD "default" := by
  have pointless := authorized.pointless
  have written := authorized.written
  unfold parseAuthorizeWorkerName
  cases worker with
  | none =>
      have whole : '.' ∉ (trim username).toList := by
        rw [written, Option.elim_none, List.append_nil]
        exact pointless
      rw [splitOnce_none.2 whole]
      rfl
  | some name =>
      have split : splitOnce '.' (trim username) =
          some (String.ofList (mark ++ digits), name) := by
        rw [splitOnce_iff, String.toList_ofList]
        exact ⟨written, pointless⟩
      rw [split, Option.map_some, Option.filter_some, if_pos authorized.validName]

/-! ## What a submit reads -/

/-- A user name with blanks around it is not the address of its worker. -/
theorem trim_of_accepted (lowerHex : matchesLowerHex 40 address = true)
    (accepted : authorizedSubmitWorker address username = true) : trim username = username := by
  have addressChar : ∀ c ∈ address.toList, isWhitespace c = false := by
    intro c member
    have digit := List.all_eq_true.1 (Bool.and_eq_true_iff.1 lowerHex).2 c member
    apply not_blank_of_hexdigit
    unfold isLowerHexdigit at digit
    unfold isAsciiHexdigit
    rw [digit, Bool.true_or]
  have blankless : ∀ c ∈ (normalizedUsername username).toList, isWhitespace c = false := by
    unfold authorizedSubmitWorker at accepted
    dsimp only at accepted
    rcases Bool.or_eq_true_iff.1 accepted with whole | named
    · rw [beq_iff_eq.1 whole]
      exact addressChar
    · obtain ⟨name, stripped, valid⟩ := (Option.any_eq_true _ _).1 named
      rw [stripPrefix_iff.1 stripped]
      intro c member
      rw [String.toList_append] at member
      rcases List.mem_append.1 member with inFront | inName
      · rcases List.mem_append.1 inFront with inAddress | point
        · exact addressChar c inAddress
        · rw [List.mem_singleton.1 point]
          decide
      · unfold validWorkerName at valid
        exact not_blank_of_workerChar
          (List.all_eq_true.1 (Bool.and_eq_true_iff.1 valid).2 c inName)
  apply trim_of_noBlanks
  intro c member
  obtain ⟨mark, marked, split⟩ := stripMark_split username
  rw [split] at member
  rcases List.mem_append.1 member with inMark | inBare
  · rcases marked with rfl | rfl | rfl
    · cases inMark
    · rcases List.mem_pair.1 inMark with rfl | rfl <;> decide
    · rcases List.mem_pair.1 inMark with rfl | rfl <;> decide
  · by_contra blank
    have blank : isWhitespace c = true := by simpa using blank
    have folded : c.toLower ∈ (normalizedUsername username).toList := by
      rw [toList_normalizedUsername]
      exact List.mem_map_of_mem inBare
    rw [toLower_of_blank blank] at folded
    rw [blankless c folded] at blank
    cases blank

theorem Authorized.accepted (authorized : Authorized username address mark digits worker)
    (trimmed : trim username = username) : authorizedSubmitWorker address username = true := by
  have normalized := authorized.normalized
  rw [trimmed] at normalized
  unfold authorizedSubmitWorker
  dsimp only
  rw [Bool.or_eq_true_iff]
  cases worker with
  | none =>
      refine .inl (beq_iff_eq.2 (String.toList_inj.1 ?_))
      simpa using normalized
  | some name =>
      refine .inr ((Option.any_eq_true _ _).2
        ⟨toAsciiLowercase name, ?_, authorized.valid name rfl⟩)
      have point : ".".toList = ['.'] := by decide
      rw [stripPrefix_iff, normalized, String.toList_append, point, toAsciiLowercase,
        String.toList_ofList, Option.elim_some, List.append_assoc, List.singleton_append]

theorem strip_address_iff {rest : String} :
    (stripPrefix address username).bind (stripPrefix ".") = some rest ↔
      username.toList = address.toList ++ '.' :: rest.toList := by
  rw [Option.bind_eq_some_iff]
  constructor
  · rintro ⟨tail, front, point⟩
    rw [stripPrefix_iff.1 front, stripPrefix_iff.1 point]
    rfl
  · intro split
    refine ⟨String.ofList ('.' :: rest.toList), stripPrefix_iff.2 ?_, stripPrefix_iff.2 ?_⟩
    · rw [split, String.toList_ofList]
    · rw [String.toList_ofList]
      rfl

theorem Authorized.submitName (authorized : Authorized username address mark digits worker)
    (trimmed : trim username = username) :
    workerNameFromSubmit address username =
      (worker.filter fun _ => mark ++ digits = address.toList).getD "default" := by
  have pointless := authorized.pointless
  have written := authorized.written
  rw [trimmed] at written
  have addressPointless : '.' ∉ address.toList := by
    intro member
    have digit := List.all_eq_true.1 (Bool.and_eq_true_iff.1 authorized.lowerHex).2 _ member
    exact absurd digit (by decide)
  unfold workerNameFromSubmit
  cases worker with
  | none =>
      have unnamed : (stripPrefix address username).bind (stripPrefix ".") = none := by
        rw [Option.eq_none_iff_forall_ne_some]
        intro rest stripped
        rw [strip_address_iff.1 stripped, Option.elim_none, List.append_nil] at written
        exact pointless (written ▸ by simp)
      rw [unnamed]
      rfl
  | some name =>
      have split : splitOnce '.' username = some (String.ofList (mark ++ digits), name) := by
        rw [splitOnce_iff, String.toList_ofList]
        exact ⟨written, pointless⟩
      rw [Option.filter_some]
      by_cases same : mark ++ digits = address.toList
      · have named : (stripPrefix address username).bind (stripPrefix ".") = some name := by
          rw [strip_address_iff, written, same]
          rfl
        have nonempty : name ≠ "" := by
          rintro rfl
          exact absurd authorized.validName (by decide)
        rw [named, Option.filter_some, if_pos (decide_eq_true nonempty),
          if_pos (decide_eq_true same)]
      · have unnamed : (stripPrefix address username).bind (stripPrefix ".") = none := by
          rw [Option.eq_none_iff_forall_ne_some]
          intro rest stripped
          have split' : splitOnce '.' username = some (address, rest) :=
            splitOnce_iff.2 ⟨strip_address_iff.1 stripped, addressPointless⟩
          rw [split] at split'
          have spelled := congrArg (fun halves => (Prod.fst halves).toList) (Option.some.inj split')
          rw [String.toList_ofList] at spelled
          exact same spelled
        rw [unnamed, if_neg (by simpa using same)]
        rfl

/-- The address is written in its normal form exactly when it is written as itself. -/
theorem Authorized.spelled_iff (authorized : Authorized username address mark digits worker) :
    matchesLowerHex 40 (String.ofList (mark ++ digits)) = true ↔
      mark ++ digits = address.toList := by
  unfold matchesLowerHex
  rw [String.toList_ofList]
  constructor
  · intro lower
    have lowerDigits := List.all_eq_true.1 (Bool.and_eq_true_iff.1 lower).2
    have unmarked : mark = [] := by
      rcases authorized.marked with rfl | rfl | rfl
      · rfl
      · exact absurd (lowerDigits 'x' (by simp)) (by decide)
      · exact absurd (lowerDigits 'X' (by simp)) (by decide)
    subst unmarked
    have unfolded : digits.map Char.toLower = digits := by
      conv_rhs => rw [← List.map_id digits]
      exact List.map_congr_left fun c member => toLower_of_lowerHex (lowerDigits c member)
    rw [authorized.folded, unfolded, List.nil_append]
  · intro same
    rw [same]
    exact authorized.lowerHex

theorem Authorized.plain_iff (authorized : Authorized username address mark digits worker)
    (trimmed : trim username = username) :
    PlainUsername username ↔
      ∀ name, worker = some name → mark ++ digits = address.toList ∨ name = "default" := by
  have written := authorized.written
  rw [trimmed] at written
  have spelledIff := authorized.spelled_iff
  unfold PlainUsername
  rw [and_iff_right trimmed]
  cases worker with
  | none =>
      have unsplit : splitOnce '.' username = none := by
        rw [splitOnce_none, written, Option.elim_none, List.append_nil]
        exact authorized.pointless
      simp [unsplit]
  | some name =>
      have split : splitOnce '.' username = some (String.ofList (mark ++ digits), name) := by
        rw [splitOnce_iff, String.toList_ofList]
        exact ⟨written, authorized.pointless⟩
      rw [split]
      constructor
      · rintro plain name' named
        cases named
        rw [← spelledIff]
        exact plain _ _ rfl
      · rintro plain spelled name' halves
        cases halves
        rw [spelledIff]
        exact plain _ rfl

/-! ## Agreement -/

theorem Authorized.sameWorker_iff (authorized : Authorized username address mark digits worker)
    (trimmed : trim username = username) :
    workerNameFromSubmit address username = parseAuthorizeWorkerName username ↔
      PlainUsername username := by
  rw [authorized.submitName trimmed, authorized.parseName, authorized.plain_iff trimmed]
  cases worker with
  | none => simp
  | some name =>
      rw [Option.filter_some, Option.getD_some]
      by_cases same : mark ++ digits = address.toList
      · simp [same]
      · rw [if_neg (by simpa using same), Option.getD_none]
        constructor
        · rintro default name' named
          cases named
          exact .inr default.symm
        · intro plain
          exact ((plain name rfl).resolve_left same).symm

theorem request_workerName {job : PoolJob} {submit : SubmitParams} {share : VerifiedShare}
    {extranonce1Le : Bytes 4} {request : BlockCandidateSubmitRequest}
    (asked : blockCandidateSubmitRequest job address submit share extranonce1Le = .ok request) :
    request.workerName = workerNameFromSubmit address submit.workerName := by
  unfold blockCandidateSubmitRequest at asked
  split at asked
  · cases asked
  · cases asked
    rfl

/-- The user names that authorize and name one worker at authorization and with every submit are
those written plainly. -/
theorem workers_agree_iff (parsed : parseAuthorizeWorker username = some address) :
    WorkersAgree address username ↔ PlainUsername username := by
  obtain ⟨mark, digits, worker, authorized⟩ := authorized_of_parsed parsed
  constructor
  · intro agree
    have trimmed := trim_of_accepted authorized.lowerHex agree.accepted
    exact (authorized.sameWorker_iff trimmed).1 agree.sameWorker
  · intro plain
    have sameWorker := (authorized.sameWorker_iff plain.1).2 plain
    refine ⟨authorized.accepted plain.1, sameWorker, ?_, ?_⟩
    · rintro sessionId submit share difficulty rfl
      exact sameWorker
    · rintro job submit share extranonce1Le request rfl asked
      rw [request_workerName asked, sameWorker]

/-- A plainly written user name with a worker of its own. -/
theorem workers_agree_rig :
    parseAuthorizeWorker "00112233445566778899aabbccddeeff00112233.Rig-1" =
        some "00112233445566778899aabbccddeeff00112233" ∧
      WorkersAgree "00112233445566778899aabbccddeeff00112233"
        "00112233445566778899aabbccddeeff00112233.Rig-1" :=
  have parsed : parseAuthorizeWorker "00112233445566778899aabbccddeeff00112233.Rig-1" =
      some "00112233445566778899aabbccddeeff00112233" := by decide +kernel
  have trimmed : trim "00112233445566778899aabbccddeeff00112233.Rig-1" =
      "00112233445566778899aabbccddeeff00112233.Rig-1" := by decide +kernel
  have spelled : matchesLowerHex 40 "00112233445566778899aabbccddeeff00112233" = true := by
    decide +kernel
  have split : splitOnce '.' "00112233445566778899aabbccddeeff00112233.Rig-1" =
      some ("00112233445566778899aabbccddeeff00112233", "Rig-1") := by decide +kernel
  have plain : PlainUsername "00112233445566778899aabbccddeeff00112233.Rig-1" := by
    refine ⟨trimmed, fun first second halves => .inl ?_⟩
    have same := congrArg Prod.fst (Option.some.inj (split.symm.trans halves))
    dsimp only at same
    rw [← same]
    exact spelled
  ⟨parsed, (workers_agree_iff parsed).2 plain⟩

/-- Both documented spellings of an address, the mark and the upper case, lose the worker: it is
`Rig-1` in the session row and `default` with every share. -/
theorem marked_username_misnames_worker :
    ¬ ∀ username address, parseAuthorizeWorker username = some address →
      authorizedSubmitWorker address username = true ∧
        workerNameFromSubmit address username = parseAuthorizeWorkerName username := by
  intro agree
  have parsed : parseAuthorizeWorker "0x00112233445566778899AABBCCDDEEFF00112233.Rig-1" =
      some "00112233445566778899aabbccddeeff00112233" := by decide +kernel
  have named := (agree _ _ parsed).2
  exact absurd named (by decide +kernel)

end CsdPool.Bridge
