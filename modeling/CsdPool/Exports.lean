/-
# Exports — the CSV files of the ledger, the batches and the audit trail

`csv_cell` stands twice in the source, for the workers and for the API.  It quotes a cell that
holds a separator, a quote, a line feed or a carriage return, and doubles the quotes in it; the
number columns are written as they are.

A file ends its lines with a line feed alone, and writes any character unquoted that needs no
quotes.  RFC 4180 knows neither: under its own line break not even the header is read
(`header_not_strict`).  Under the grammar with that line break and those characters, each file is
read in one way with as many fields throughout, and as the records it was made from
(`csv_exports`).
-/
import CsdPool.Amounts
import CsdPool.Node
import CsdPool.Theory.Csv

namespace CsdPool

open Theory (digitsValue)

set_option autoImplicit false

/-- `LedgerKind::as_str`. -/
def LedgerKind.asStr : LedgerKind → String
  | .rewardImmature => "reward_immature"
  | .rewardMature => "reward_mature"
  | .rewardOrphanReversal => "reward_orphan_reversal"
  | .payoutLock => "payout_lock"
  | .payoutSent => "payout_sent"
  | .payoutFailedUnlock => "payout_failed_unlock"
  | .poolFee => "pool_fee"
  | .manualAdjustment => "manual_adjustment"

/-- A number as `format!` writes it. -/
def displayUnsigned (n : Nat) : String := String.ofList (Nat.toDigits 10 n)

/-- A sign for what is negative, and the digits. -/
def displaySigned (n : Int) : String :=
  (if n < 0 then "-" else "") ++ displayUnsigned n.natAbs

/-- The body both copies of `csv_cell` have. -/
def csvCell (value : String) : String :=
  if value.toList.contains ',' || value.toList.contains '"' || value.toList.contains '\n' ||
      value.toList.contains '\r' then
    "\"" ++ String.ofList (value.toList.flatMap fun c => if c = '"' then ['"', '"'] else [c]) ++ "\""
  else value

/-- One `format!` of a line: the cells with commas between them and a line feed. -/
def csvLine (cells : List String) : String := ",".intercalate cells ++ "\n"

namespace Workers

def csvCell : String → String := CsdPool.csvCell

/-- The worker's writer puts the sign before the amount. -/
def formatSignedCsd (amountBaseUnits : Int) : String :=
  let sign := if amountBaseUnits < 0 then "-" else ""
  let absolute := amountBaseUnits.natAbs
  sign ++ String.ofList (Nat.toDigits 10 (absolute / 100000000) ++
    '.' :: (Nat.toDigits 10 (absolute % 100000000)).leftpad 8 '0')

/-- The header, and a line for each entry under its number. -/
def ledgerEntriesCsv (entries : List LedgerEntry) : String :=
  entries.zipIdx.foldl (fun csv (entry, index) =>
    csv ++ csvLine [displayUnsigned (index + 1), csvCell (entry.miner.getD "pool"),
      displaySigned entry.amountBaseUnits, formatSignedCsd entry.amountBaseUnits,
      csvCell entry.kind.asStr, csvCell entry.refType, csvCell entry.refId])
    "entry_index,miner,amount_base_units,amount_csd,kind,ref_type,ref_id\n"

end Workers

namespace Api

/-- A batch as the export receives it: the status is a text here. -/
structure PayoutBatchRecord where
  batchId : String
  status : String
  totalBaseUnits : Nat
  txid : Option String
  recipients : List PayoutRecipient

structure PayoutAuditEvent where
  batchId : String
  actor : String
  action : String
  details : Json
  createdAt : Option String

def csvCell : String → String := CsdPool.csvCell

def formatCsd (baseUnits : Nat) : String :=
  String.ofList (Nat.toDigits 10 (baseUnits / 100000000) ++
    '.' :: (Nat.toDigits 10 (baseUnits % 100000000)).leftpad 8 '0')

/-- The header, and a line for each recipient of each batch. -/
def payoutBatchesCsv (batches : List PayoutBatchRecord) : String :=
  batches.foldl (fun csv batch =>
    batch.recipients.foldl (fun csv recipient =>
      csv ++ csvLine [csvCell batch.batchId, csvCell batch.status, csvCell (batch.txid.getD ""),
        csvCell recipient.address, displayUnsigned recipient.amountBaseUnits,
        formatCsd recipient.amountBaseUnits, displayUnsigned batch.totalBaseUnits,
        formatCsd batch.totalBaseUnits]) csv)
    ("batch_id,status,txid,recipient,amount_base_units,amount_csd,total_base_units," ++
      "total_csd\n")

/-- `toText` is `serde_json::Value::to_string`. -/
def payoutAuditEventsCsv (toText : Json → String) (events : List PayoutAuditEvent) : String :=
  events.foldl (fun csv event =>
    csv ++ csvLine [csvCell (event.createdAt.getD ""), csvCell event.batchId,
      csvCell event.actor, csvCell event.action, csvCell (toText event.details)])
    "created_at,batch_id,actor,action,details_json\n"

end Api

/-! ## What the files should be read as -/

/-- RFC 4180: records end with CRLF, and text data is printable ASCII. -/
def rfc4180 : Theory.Csv.Dialect Char where
  comma := ','
  quote := '"'
  textData c := 0x20 ≤ c.toNat ∧ c.toNat ≤ 0x7e ∧ c ≠ '"' ∧ c ≠ ','
  escapedData c := 0x20 ≤ c.toNat ∧ c.toNat ≤ 0x7e ∧ c ≠ '"' ∨ c = '\r' ∨ c = '\n'
  breakHead := '\r'
  breakTail := ['\n']
  comma_ne_quote := by decide
  comma_ne_break := by decide
  quote_ne_break := by decide
  comma_not_text := by decide
  quote_not_text := by decide
  break_not_text := by decide
  quote_not_escaped := by decide

/-- The grammar with a line feed for a line break, and every character for text data that is no
part of the grammar. -/
def lineFeedCsv : Theory.Csv.Dialect Char where
  comma := ','
  quote := '"'
  textData c := c ≠ ',' ∧ c ≠ '"' ∧ c ≠ '\n' ∧ c ≠ '\r'
  escapedData c := c ≠ '"'
  breakHead := '\n'
  breakTail := []
  comma_ne_quote := by decide
  comma_ne_break := by decide
  quote_ne_break := by decide
  comma_not_text := by decide
  quote_not_text := by decide
  break_not_text := by decide
  quote_not_escaped := by decide

/-- Records as lists of characters, which the grammar speaks of. -/
def symbols (records : List (List String)) : List (List (List Char)) :=
  records.map (List.map String.toList)

/-- Read with as many fields throughout, the text is these records and nothing else. -/
def ReadsOnly (dialect : Theory.Csv.Dialect Char) (text : String) (records : List (List String)) :
    Prop :=
  ∀ readings : List (List (List Char)),
    Theory.Csv.File dialect text.toList readings ∧ Theory.Csv.Uniform readings ↔
      readings = symbols records

def ledgerHeader : List String :=
  ["entry_index", "miner", "amount_base_units", "amount_csd", "kind", "ref_type", "ref_id"]

/-- The values of an entry's line. -/
def ledgerRecord (entry : LedgerEntry) (index : Nat) : List String :=
  [displayUnsigned (index + 1), entry.miner.getD "pool", displaySigned entry.amountBaseUnits,
    Workers.formatSignedCsd entry.amountBaseUnits, entry.kind.asStr, entry.refType, entry.refId]

def batchesHeader : List String :=
  ["batch_id", "status", "txid", "recipient", "amount_base_units", "amount_csd",
    "total_base_units", "total_csd"]

/-- The values of a recipient's line; the batch's own are repeated. -/
def recipientRecord (batch : Api.PayoutBatchRecord) (recipient : PayoutRecipient) : List String :=
  [batch.batchId, batch.status, batch.txid.getD "", recipient.address,
    displayUnsigned recipient.amountBaseUnits, Api.formatCsd recipient.amountBaseUnits,
    displayUnsigned batch.totalBaseUnits, Api.formatCsd batch.totalBaseUnits]

def auditHeader : List String := ["created_at", "batch_id", "actor", "action", "details_json"]

/-- The values of an event's line. -/
def auditRecord (toText : Json → String) (event : Api.PayoutAuditEvent) : List String :=
  [event.createdAt.getD "", event.batchId, event.actor, event.action, toText event.details]

/-- The number digits with an optional point stand for. -/
def unsignedValue (text : List Char) : Option ℚ :=
  match text.splitOn '.' with
  | [whole] =>
      if !whole.isEmpty && whole.all Char.isDigit then some (digitsValue whole) else none
  | [whole, frac] =>
      if !whole.isEmpty && whole.all Char.isDigit && frac.all Char.isDigit then
        some (amountValue whole frac)
      else none
  | _ => none

/-- The number a column stands for. -/
def decimalValue (text : String) : Option ℚ :=
  match text.toList with
  | '-' :: digits => (unsignedValue digits).map fun value => -value
  | digits => unsignedValue digits

/-- One column is an amount in base units, and the other the same amount in CSD. -/
def CsdColumn (record : List String) (baseUnits csd : Nat) (amount : ℚ) : Prop :=
  ∃ baseText csdText, record[baseUnits]? = some baseText ∧ record[csd]? = some csdText ∧
    decimalValue baseText = some amount ∧ decimalValue csdText = some (amount / 10 ^ 8)

/-! ## Cells -/

open Theory.Csv (Field Record File Wide Uniform record_join file_lines)

/-- A quoted cell and an unquoted one are fields of the same value. -/
theorem field_csvCell (value : String) :
    Field lineFeedCsv (csvCell value).toList value.toList := by
  unfold csvCell
  split
  · have between : ("\"" ++ String.ofList (value.toList.flatMap fun c =>
        if c = '"' then ['"', '"'] else [c]) ++ "\"").toList =
        Theory.Csv.quoted '"' value.toList := by
      rw [String.toList_append, String.toList_append]
      simp only [String.toList_ofList]
      rfl
    rw [between]
    exact Theory.Csv.field_quoted (D := lineFeedCsv) fun c _ other => other
  · rename_i plain
    simp only [Bool.or_eq_true, List.contains_iff_mem, not_or] at plain
    obtain ⟨⟨⟨comma, quote⟩, lineFeed⟩, carriageReturn⟩ := plain
    refine .plain fun c member => ⟨?_, ?_, ?_, ?_⟩
    · exact fun same => comma (same ▸ member)
    · exact fun same => quote (same ▸ member)
    · exact fun same => lineFeed (same ▸ member)
    · exact fun same => carriageReturn (same ▸ member)

/-- Digits, points and signs need no quotes. -/
theorem field_plain {text : String}
    (plain : ∀ c ∈ text.toList, c.isDigit = true ∨ c = '.' ∨ c = '-') :
    Field lineFeedCsv text.toList text.toList := by
  refine .plain fun c member => ?_
  rcases plain c member with digit | rfl | rfl
  · refine ⟨?_, ?_, ?_, ?_⟩ <;> (rintro rfl; exact absurd digit (by decide))
  · exact ⟨by decide, by decide, by decide, by decide⟩
  · exact ⟨by decide, by decide, by decide, by decide⟩

/-- Digits stand as they are. -/
theorem field_displayUnsigned (n : Nat) :
    Field lineFeedCsv (displayUnsigned n).toList (displayUnsigned n).toList := by
  apply field_plain
  intro c member
  rw [displayUnsigned, String.toList_ofList] at member
  exact .inl (List.all_eq_true.1 (Theory.all_isDigit_toDigits n) c member)

theorem toList_sign (n : Int) (text : String) :
    ((if n < 0 then "-" else "") ++ text).toList =
      if n < 0 then '-' :: text.toList else text.toList := by
  split <;> rw [String.toList_append] <;> rfl

theorem field_displaySigned (n : Int) :
    Field lineFeedCsv (displaySigned n).toList (displaySigned n).toList := by
  apply field_plain
  intro c member
  rw [displaySigned, toList_sign, displayUnsigned, String.toList_ofList] at member
  have digits := List.all_eq_true.1 (Theory.all_isDigit_toDigits n.natAbs)
  split at member
  · rcases List.mem_cons.1 member with sign | digit
    · exact .inr (.inr sign)
    · exact .inl (digits c digit)
  · exact .inl (digits c member)

/-- An amount has eight digits after its point. -/
theorem formatCsd_toList (n : Nat) :
    (Api.formatCsd n).toList = Nat.toDigits 10 (n / csdBaseUnits) ++
      '.' :: (Nat.toDigits 10 (n % csdBaseUnits)).leftpad 8 '0' := by
  rw [Api.formatCsd, String.toList_ofList]
  rfl

theorem formatCsd_plain (n : Nat) :
    ∀ c ∈ (Api.formatCsd n).toList, c.isDigit = true ∨ c = '.' ∨ c = '-' := by
  intro c member
  rw [formatCsd_toList] at member
  rcases List.mem_append.1 member with inWhole | rest
  · exact .inl (List.all_eq_true.1 (Theory.all_isDigit_toDigits _) c inWhole)
  · rcases List.mem_cons.1 rest with point | inFrac
    · exact .inr (.inl point)
    · exact .inl (List.all_eq_true.1
        (Theory.all_isDigit_leftpad (Theory.all_isDigit_toDigits _) 8) c inFrac)

/-- The signed text is the sign and the unsigned text. -/
theorem formatSignedCsd_eq (n : Int) :
    Workers.formatSignedCsd n = (if n < 0 then "-" else "") ++ Api.formatCsd n.natAbs := rfl

theorem field_formatCsd (n : Nat) :
    Field lineFeedCsv (Api.formatCsd n).toList (Api.formatCsd n).toList :=
  field_plain (formatCsd_plain n)

theorem field_formatSignedCsd (n : Int) :
    Field lineFeedCsv (Workers.formatSignedCsd n).toList (Workers.formatSignedCsd n).toList := by
  apply field_plain
  intro c member
  rw [formatSignedCsd_eq, toList_sign] at member
  split at member
  · rcases List.mem_cons.1 member with sign | rest
    · exact .inr (.inr sign)
    · exact formatCsd_plain _ c rest
  · exact formatCsd_plain _ c member

/-! ## Lines and files -/

theorem toList_intercalate (cells : List String) :
    (",".intercalate cells).toList = [','].intercalate (cells.map String.toList) := by
  induction cells with
  | nil => rfl
  | cons cell cells ih =>
      cases cells with
      | nil => simp
      | cons next cells =>
          rw [String.intercalate_cons_cons, String.toList_append, String.toList_append, ih]
          simp [List.intercalate_cons_cons]

/-- The cells of a line against the values they were made from. -/
def Cells (cells values : List String) : Prop :=
  List.Forall₂ (fun cell value => Field lineFeedCsv cell.toList value.toList) cells values

/-- A text to which line after line is appended is the start and the lines. -/
theorem foldl_append_toList {β : Type} (line : β → String) (items : List β) (start : String) :
    (items.foldl (fun csv item => csv ++ line item) start).toList =
      start.toList ++ items.flatMap fun item => (line item).toList := by
  induction items generalizing start with
  | nil => simp
  | cons item items ih =>
      rw [List.foldl_cons, ih, String.toList_append, List.append_assoc, List.flatMap_cons]

theorem csvLine_toList (cells : List String) :
    (csvLine cells).toList =
      [','].intercalate (cells.map String.toList) ++ lineFeedCsv.lineBreak := by
  rw [csvLine, String.toList_append, toList_intercalate]
  rfl

/-- Cells that were made of their values read back as these values. -/
theorem record_of_cells {cells values : List String} (made : Cells cells values)
    (nonempty : cells ≠ []) :
    Record lineFeedCsv ([','].intercalate (cells.map String.toList)) (values.map String.toList) :=
  record_join (D := lineFeedCsv) (List.forall₂_map_left_iff.2 (List.forall₂_map_right_iff.2 made))
    (fun empty => nonempty (List.map_eq_nil_iff.1 empty))

/-- **A file is its records.**  Lines are made of cells, as many in each, and two at least. -/
theorem readsOnly_lines {text : String} {lines records : List (List String)} {width : Nat}
    (written : text.toList = lines.flatMap fun cells => (csvLine cells).toList)
    (made : List.Forall₂ Cells lines records) (nonempty : lines ≠ [])
    (uniform : ∀ record ∈ records, record.length = width) (two : 2 ≤ width) :
    ReadsOnly lineFeedCsv text records := by
  have widths : ∀ values ∈ symbols records, values.length = width := by
    intro values member
    obtain ⟨record, inRecords, rfl⟩ := List.mem_map.1 member
    rw [List.length_map]
    exact uniform record inRecords
  have read : List.Forall₂ (Record lineFeedCsv)
      (lines.map fun cells => [','].intercalate (cells.map String.toList)) (symbols records) := by
    refine List.forall₂_map_left_iff.2 (List.forall₂_map_right_iff.2 ?_)
    clear written nonempty widths
    induction made with
    | nil => exact .nil
    | @cons cells record lines records cell _ ih =>
        refine .cons (record_of_cells cell ?_)
          (ih fun other member => uniform other (List.mem_cons_of_mem _ member))
        rintro rfl
        have none_ := List.forall₂_nil_left_iff.1 cell
        have length := uniform record List.mem_cons_self
        rw [none_, List.length_nil] at length
        omega
  have file := file_lines read fun empty => nonempty (List.map_eq_nil_iff.1 empty)
  have joined : (lines.map fun cells => [','].intercalate (cells.map String.toList)).flatMap
      (fun line => line ++ lineFeedCsv.lineBreak) = text.toList := by
    rw [written, List.flatMap_map]
    congr 1
    funext cells
    exact (csvLine_toList cells).symm
  rw [joined] at file
  exact file.unique_uniform ⟨width, widths⟩ fun values member => (widths values member).symm ▸ two

/-! ## The columns of amounts -/

theorem digits_nonempty (n : Nat) : (Nat.toDigits 10 n).isEmpty = false :=
  List.isEmpty_eq_false_iff.2 Nat.toDigits_ne_nil

theorem unsignedValue_digits (n : Nat) : unsignedValue (Nat.toDigits 10 n) = some (n : ℚ) := by
  have digits := Theory.all_isDigit_toDigits n
  unfold unsignedValue
  rw [List.splitOn_eq_singleton (point_not_digit digits)]
  dsimp only
  rw [digits_nonempty, digits, Theory.digitsValue_toDigits]
  rfl

/-- An amount reads back as its number of base units, in whole coins. -/
theorem unsignedValue_formatCsd (n : Nat) :
    unsignedValue (Api.formatCsd n).toList = some ((n : ℚ) / 10 ^ 8) := by
  have wholeDigits := Theory.all_isDigit_toDigits (n / csdBaseUnits)
  have fracDigits :=
    Theory.all_isDigit_leftpad (Theory.all_isDigit_toDigits (n % csdBaseUnits)) 8
  unfold unsignedValue
  rw [formatCsd_toList, List.splitOn_append_cons_self_of_not_mem (point_not_digit wholeDigits),
    List.splitOn_eq_singleton (point_not_digit fracDigits)]
  dsimp only
  rw [digits_nonempty, wholeDigits, fracDigits, amountValue_digits]
  rfl

/-- A text without a sign in front stands for its digits. -/
theorem decimalValue_unsigned {text : String} {value : ℚ}
    (plain : ∀ digits, text.toList ≠ '-' :: digits)
    (digits : unsignedValue text.toList = some value) : decimalValue text = some value := by
  unfold decimalValue
  split
  · rename_i rest signed
    exact absurd signed (plain rest)
  · exact digits

/-- A sign before a text without one negates its value. -/
theorem decimalValue_signed {n : Int} {text : String} {value : ℚ}
    (plain : ∀ digits, text.toList ≠ '-' :: digits)
    (digits : unsignedValue text.toList = some value) :
    decimalValue ((if n < 0 then "-" else "") ++ text) =
      some (if n < 0 then -value else value) := by
  by_cases negative : n < 0
  · have signed : ((if n < 0 then "-" else "") ++ text).toList = '-' :: text.toList := by
      rw [toList_sign, if_pos negative]
    unfold decimalValue
    rw [signed, if_pos negative]
    show (unsignedValue text.toList).map _ = _
    rw [digits]
    rfl
  · rw [if_neg negative, if_neg negative, String.empty_append]
    exact decimalValue_unsigned plain digits

theorem digits_unsigned (n : Nat) (rest digits : List Char) :
    Nat.toDigits 10 n ++ rest ≠ '-' :: digits := by
  intro same
  cases shape : Nat.toDigits 10 n with
  | nil => exact Nat.toDigits_ne_nil shape
  | cons c tail =>
      have all := Theory.all_isDigit_toDigits n
      rw [shape] at same all
      rw [List.all_cons, (List.cons.inj same).1] at all
      exact absurd all (by simp)

theorem displayUnsigned_plain (n : Nat) (digits : List Char) :
    (displayUnsigned n).toList ≠ '-' :: digits := by
  rw [displayUnsigned, String.toList_ofList, ← List.append_nil (Nat.toDigits 10 n)]
  exact digits_unsigned n [] digits

theorem formatCsd_unsigned (n : Nat) (digits : List Char) :
    (Api.formatCsd n).toList ≠ '-' :: digits := by
  rw [formatCsd_toList]
  exact digits_unsigned _ _ digits

theorem unsignedValue_display (n : Nat) :
    unsignedValue (displayUnsigned n).toList = some (n : ℚ) := by
  rw [displayUnsigned, String.toList_ofList, unsignedValue_digits]

theorem sign_natAbs (n : Int) (scale : ℚ) :
    (if n < 0 then -((n.natAbs : ℚ) / scale) else (n.natAbs : ℚ) / scale) = (n : ℚ) / scale := by
  by_cases negative : n < 0
  · have value : ((n.natAbs : Int) : ℚ) = ((-n : Int) : ℚ) := by
      rw [Int.ofNat_natAbs_of_nonpos negative.le]
    rw [if_pos negative, ← Int.cast_natCast, value, Int.cast_neg, neg_div, neg_neg]
  · have value : ((n.natAbs : Int) : ℚ) = (n : ℚ) := by
      rw [Int.natAbs_of_nonneg (Int.not_lt.1 negative)]
    rw [if_neg negative, ← Int.cast_natCast, value]

/-- The two amounts of a line are one amount, in base units and in coins. -/
theorem ledgerRecord_column (entry : LedgerEntry) (index : Nat) :
    CsdColumn (ledgerRecord entry index) 2 3 entry.amountBaseUnits := by
  refine ⟨_, _, rfl, rfl, ?_, ?_⟩
  · have value := sign_natAbs entry.amountBaseUnits 1
    rw [div_one, div_one] at value
    rw [displaySigned, decimalValue_signed (displayUnsigned_plain _) (unsignedValue_display _),
      value]
  · rw [formatSignedCsd_eq, decimalValue_signed (formatCsd_unsigned _) (unsignedValue_formatCsd _),
      sign_natAbs]

theorem decimalValue_display (n : Nat) : decimalValue (displayUnsigned n) = some (n : ℚ) :=
  decimalValue_unsigned (displayUnsigned_plain n) (unsignedValue_display n)

theorem decimalValue_formatCsd (n : Nat) :
    decimalValue (Api.formatCsd n) = some ((n : ℚ) / 10 ^ 8) :=
  decimalValue_unsigned (formatCsd_unsigned n) (unsignedValue_formatCsd n)

/-! ## The three files -/

/-- Every name of the header is written in letters and underscores. -/
def plainHeader (header : List String) : Bool :=
  header.all fun name => name.toList.all fun c => c.isAlpha || c == '_'

theorem header_cells {header : List String} (plain : plainHeader header = true) :
    Cells header header := by
  refine List.forall₂_same.2 fun name member => .plain fun c inName => ?_
  have written : (c.isAlpha || c == '_') = true :=
    List.all_eq_true.1 (List.all_eq_true.1 plain name member) c inName
  rcases (Bool.or_eq_true _ _).mp written with letter | mark
  · refine ⟨?_, ?_, ?_, ?_⟩ <;> (rintro rfl; exact absurd letter (by decide))
  · rw [eq_of_beq mark]
    exact ⟨by decide, by decide, by decide, by decide⟩

theorem ledgerHeader_line :
    "entry_index,miner,amount_base_units,amount_csd,kind,ref_type,ref_id\n" =
      csvLine ledgerHeader := by
  decide +kernel

theorem batchesHeader_line :
    "batch_id,status,txid,recipient,amount_base_units,amount_csd,total_base_units," ++
      "total_csd\n" = csvLine batchesHeader := by
  decide +kernel

theorem auditHeader_line :
    "created_at,batch_id,actor,action,details_json\n" = csvLine auditHeader := by
  decide +kernel

/-- A header and a line for each item. -/
theorem readsOnly_items {β : Type} {text : String} {header : List String} {items : List β}
    {record : β → List String} (cells : β → List String)
    (written : text = items.foldl (fun csv item => csv ++ csvLine (cells item)) (csvLine header))
    (plain : plainHeader header = true)
    (made : ∀ item, Cells (cells item) (record item))
    (uniform : ∀ item, (record item).length = header.length) (two : 2 ≤ header.length) :
    ReadsOnly lineFeedCsv text (header :: items.map record) := by
  have lines : text.toList =
      (header :: items.map cells).flatMap fun cells => (csvLine cells).toList := by
    rw [written, foldl_append_toList, List.flatMap_cons, List.flatMap_map]
  refine readsOnly_lines lines (.cons (header_cells plain) ?_) (List.cons_ne_nil _ _) ?_ two
  · exact List.forall₂_map_left_iff.2 (List.forall₂_map_right_iff.2
      (List.forall₂_same.2 fun item _ => made item))
  · intro values member
    rcases List.mem_cons.1 member with rfl | inRecords
    · rfl
    · obtain ⟨item, -, rfl⟩ := List.mem_map.1 inRecords
      exact uniform item

theorem ledger_reads (entries : List LedgerEntry) :
    ReadsOnly lineFeedCsv (Workers.ledgerEntriesCsv entries)
      (ledgerHeader :: entries.mapIdx fun index entry => ledgerRecord entry index) := by
  rw [List.mapIdx_eq_zipIdx_map]
  refine readsOnly_items (fun item => [displayUnsigned (item.2 + 1),
      csvCell (item.1.miner.getD "pool"), displaySigned item.1.amountBaseUnits,
      Workers.formatSignedCsd item.1.amountBaseUnits, csvCell item.1.kind.asStr,
      csvCell item.1.refType, csvCell item.1.refId]) ?_ (by decide) ?_ (fun _ => rfl) (by decide)
  · rw [← ledgerHeader_line]
    rfl
  · intro item
    exact .cons (field_displayUnsigned _) <| .cons (field_csvCell _) <|
      .cons (field_displaySigned _) <| .cons (field_formatSignedCsd _) <|
      .cons (field_csvCell _) <| .cons (field_csvCell _) <| .cons (field_csvCell _) .nil

/-- The loops over batches and recipients are one loop over the recipients of all batches. -/
theorem batches_foldl (batches : List Api.PayoutBatchRecord) {β : Type}
    (step : β → Api.PayoutBatchRecord → PayoutRecipient → β) (start : β) :
    batches.foldl (fun csv batch =>
      batch.recipients.foldl (fun csv recipient => step csv batch recipient) csv) start =
    (batches.flatMap fun batch => batch.recipients.map fun recipient => (batch, recipient)).foldl
      (fun csv item => step csv item.1 item.2) start := by
  rw [List.foldl_flatMap]
  congr 1
  funext csv batch
  rw [List.foldl_map]

theorem batches_read (batches : List Api.PayoutBatchRecord) :
    ReadsOnly lineFeedCsv (Api.payoutBatchesCsv batches)
      (batchesHeader :: batches.flatMap fun batch => batch.recipients.map (recipientRecord batch)) := by
  have rows : (batches.flatMap fun batch => batch.recipients.map (recipientRecord batch)) =
      (batches.flatMap fun batch => batch.recipients.map fun recipient => (batch, recipient)).map
        fun item => recipientRecord item.1 item.2 := by
    rw [List.map_flatMap]
    simp only [List.map_map]
    rfl
  rw [rows]
  refine readsOnly_items (fun item => [csvCell item.1.batchId, csvCell item.1.status,
      csvCell (item.1.txid.getD ""), csvCell item.2.address,
      displayUnsigned item.2.amountBaseUnits, Api.formatCsd item.2.amountBaseUnits,
      displayUnsigned item.1.totalBaseUnits, Api.formatCsd item.1.totalBaseUnits])
    ?_ (by decide) ?_ (fun _ => rfl) (by decide)
  · rw [← batchesHeader_line]
    exact batches_foldl batches _ _
  · intro item
    exact .cons (field_csvCell _) <| .cons (field_csvCell _) <| .cons (field_csvCell _) <|
      .cons (field_csvCell _) <| .cons (field_displayUnsigned _) <| .cons (field_formatCsd _) <|
      .cons (field_displayUnsigned _) <| .cons (field_formatCsd _) .nil

theorem audit_reads (toText : Json → String) (events : List Api.PayoutAuditEvent) :
    ReadsOnly lineFeedCsv (Api.payoutAuditEventsCsv toText events)
      (auditHeader :: events.map (auditRecord toText)) := by
  refine readsOnly_items (fun event => [csvCell (event.createdAt.getD ""),
      csvCell event.batchId, csvCell event.actor, csvCell event.action,
      csvCell (toText event.details)]) ?_ (by decide) ?_ (fun _ => rfl) (by decide)
  · rw [← auditHeader_line]
    rfl
  · intro event
    exact .cons (field_csvCell _) <| .cons (field_csvCell _) <| .cons (field_csvCell _) <|
      .cons (field_csvCell _) <| .cons (field_csvCell _) .nil

/-- **CSV exports.**  Each file is read as its header and one record an entry, a recipient or an
event, with as many fields throughout and in no other way, and the CSD columns are the base-unit
columns divided by 10^8. -/
theorem csv_exports (toText : Json → String) :
    (∀ entries : List LedgerEntry,
      ReadsOnly lineFeedCsv (Workers.ledgerEntriesCsv entries)
        (ledgerHeader :: entries.mapIdx fun index entry => ledgerRecord entry index) ∧
      ∀ entry index, CsdColumn (ledgerRecord entry index) 2 3 entry.amountBaseUnits) ∧
    (∀ batches : List Api.PayoutBatchRecord,
      ReadsOnly lineFeedCsv (Api.payoutBatchesCsv batches)
        (batchesHeader ::
          batches.flatMap fun batch => batch.recipients.map (recipientRecord batch)) ∧
      ∀ batch recipient,
        CsdColumn (recipientRecord batch recipient) 4 5 recipient.amountBaseUnits ∧
        CsdColumn (recipientRecord batch recipient) 6 7 batch.totalBaseUnits) ∧
    ∀ events : List Api.PayoutAuditEvent,
      ReadsOnly lineFeedCsv (Api.payoutAuditEventsCsv toText events)
        (auditHeader :: events.map (auditRecord toText)) := by
  refine ⟨fun entries => ⟨ledger_reads entries, ledgerRecord_column⟩,
    fun batches => ⟨batches_read batches, fun batch recipient => ⟨?_, ?_⟩⟩, audit_reads toText⟩
  · exact ⟨_, _, rfl, rfl, decimalValue_display _, decimalValue_formatCsd _⟩
  · exact ⟨_, _, rfl, rfl, decimalValue_display _, decimalValue_formatCsd _⟩

/-- The header's line feed is no line break of RFC 4180. -/
theorem header_not_strict :
    ¬ ∃ readings, Theory.Csv.File rfc4180 (Workers.ledgerEntriesCsv []).toList readings := by
  rintro ⟨readings, file⟩
  have unquoted : rfc4180.quote ∉ (Workers.ledgerEntriesCsv []).toList := by decide +kernel
  have unbroken : rfc4180.breakHead ∉ (Workers.ledgerEntriesCsv []).toList := by decide +kernel
  have lineFeed : '\n' ∈ (Workers.ledgerEntriesCsv []).toList := by decide +kernel
  rcases file.symbols unquoted unbroken '\n' lineFeed with printable | comma
  · exact absurd printable.1 (by decide)
  · exact absurd comma (by decide)

end CsdPool
