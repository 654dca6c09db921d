/-
# Theory.Csv — the grammar of separated records, and that it reads one way

The grammar is that of RFC 4180 over any alphabet: a field is text data or an escaped field
between quotes, in which a quote is doubled; a record is fields with separators between them; a
file is records with line breaks between them and one more at the end, or none.  A `Dialect` says
which symbols are text data, which may stand between quotes, and what a line break is.

A record is read one way (`Record.unique`).  A file is not: a line break at its end may also stand
before a last record of one empty field.  With two fields or more to a record it is
(`File.unique`), and so it is with as many fields throughout (`File.unique_uniform`).  What a writer puts out that quotes a cell where it must is read as its cells
(`file_lines`).
-/
import Mathlib.Data.List.Basic

namespace CsdPool.Theory.Csv

set_option autoImplicit false

universe u

/-- The symbols of a file. -/
structure Dialect (α : Type u) where
  comma : α
  quote : α
  textData : α → Prop
  escapedData : α → Prop
  breakHead : α
  breakTail : List α
  comma_ne_quote : comma ≠ quote
  comma_ne_break : comma ≠ breakHead
  quote_ne_break : quote ≠ breakHead
  comma_not_text : ¬ textData comma
  quote_not_text : ¬ textData quote
  break_not_text : ¬ textData breakHead
  quote_not_escaped : ¬ escapedData quote

variable {α : Type u} (D : Dialect α)

/-- A line break; its first symbol is one that no plain field has. -/
def Dialect.lineBreak : List α := D.breakHead :: D.breakTail

/-- What follows the opening quote of an escaped field, and its value. -/
inductive Escaped : List α → List α → Prop
  | close : Escaped [D.quote] []
  | symbol {c : α} {text value : List α} : D.escapedData c → Escaped text value →
      Escaped (c :: text) (c :: value)
  | doubled {text value : List α} : Escaped text value →
      Escaped (D.quote :: D.quote :: text) (D.quote :: value)

/-- A field as text, and its value: plain text stands for itself, anything may stand between quotes.
-/
inductive Field : List α → List α → Prop
  | plain {value : List α} : (∀ c ∈ value, D.textData c) → Field value value
  | escaped {text value : List α} : Escaped D text value → Field (D.quote :: text) value

/-- The fields of a line, with commas between them. -/
inductive Record : List α → List (List α) → Prop
  | last {text value : List α} : Field D text value → Record text [value]
  | cons {text value rest : List α} {values : List (List α)} : Field D text value →
      Record rest values → Record (text ++ D.comma :: rest) (value :: values)

/-- The records of a file; the line break after the last of them is optional. -/
inductive File : List α → List (List (List α)) → Prop
  | last {text : List α} {values : List (List α)} : Record D text values → File text [values]
  | lastBreak {text : List α} {values : List (List α)} : Record D text values →
      File (text ++ D.lineBreak) [values]
  | cons {text rest : List α} {values : List (List α)} {records : List (List (List α))} :
      Record D text values → File rest records →
      File (text ++ (D.lineBreak ++ rest)) (values :: records)

/-! ## One reading -/

/-- What may follow a field: nothing, a separator or a line break. -/
def Closes (rest : List α) : Prop :=
  ∀ c tail, rest = c :: tail → c = D.comma ∨ c = D.breakHead

/-- What may follow a record: nothing or a line break. -/
def Ends (rest : List α) : Prop := ∀ c tail, rest = c :: tail → c = D.breakHead

variable {D}

theorem Ends.closes {rest : List α} (ends : Ends D rest) : Closes D rest :=
  fun c tail same => .inr (ends c tail same)

theorem Closes.not_quote {rest tail : List α} (closes : Closes D rest) :
    rest ≠ D.quote :: tail := by
  intro same
  rcases closes _ _ same with comma | broken
  · exact D.comma_ne_quote comma.symm
  · exact D.quote_ne_break broken

theorem Closes.not_text {rest : List α} (closes : Closes D rest) {c : α} {tail : List α}
    (same : rest = c :: tail) : ¬ D.textData c := by
  rcases closes _ _ same with rfl | rfl
  · exact D.comma_not_text
  · exact D.break_not_text

theorem closes_comma (tail : List α) : Closes D (D.comma :: tail) := by
  intro c tail' same
  exact .inl (List.cons.inj same).1.symm

theorem ends_nil : Ends D [] := by
  intro c tail same
  cases same

theorem ends_lineBreak (tail : List α) : Ends D (D.lineBreak ++ tail) := by
  intro c tail' same
  exact (List.cons.inj same).1.symm

/-- A quoted field ends at its first quote that is not doubled. -/
theorem Escaped.unique {text value text' value' rest rest' : List α}
    (escaped : Escaped D text value) (escaped' : Escaped D text' value')
    (closes : Closes D rest) (closes' : Closes D rest') (same : text ++ rest = text' ++ rest') :
    text = text' ∧ value = value' := by
  induction escaped generalizing text' value' with
  | close =>
      cases escaped' with
      | close => exact ⟨rfl, rfl⟩
      | symbol data _ =>
          rw [← (List.cons.inj same).1] at data
          exact absurd data D.quote_not_escaped
      | doubled _ => exact absurd (List.cons.inj same).2 closes.not_quote
  | symbol data _ ih =>
      cases escaped' with
      | close =>
          rw [(List.cons.inj same).1] at data
          exact absurd data D.quote_not_escaped
      | symbol _ tail' =>
          obtain ⟨rfl, later⟩ := List.cons.inj same
          obtain ⟨rfl, rfl⟩ := ih tail' later
          exact ⟨rfl, rfl⟩
      | doubled _ =>
          rw [(List.cons.inj same).1] at data
          exact absurd data D.quote_not_escaped
  | doubled _ ih =>
      cases escaped' with
      | close => exact absurd (List.cons.inj same).2.symm closes'.not_quote
      | symbol data _ =>
          rw [← (List.cons.inj same).1] at data
          exact absurd data D.quote_not_escaped
      | doubled tail' =>
          obtain ⟨rfl, rfl⟩ := ih tail' (List.cons.inj (List.cons.inj same).2).2
          exact ⟨rfl, rfl⟩

/-- Text data ends where something else begins. -/
theorem plain_unique {value value' rest rest' : List α} (data : ∀ c ∈ value, D.textData c)
    (data' : ∀ c ∈ value', D.textData c) (closes : Closes D rest) (closes' : Closes D rest')
    (same : value ++ rest = value' ++ rest') : value = value' := by
  induction value generalizing value' with
  | nil =>
      cases value' with
      | nil => rfl
      | cons c tail' => exact absurd (data' c List.mem_cons_self) (closes.not_text same)
  | cons c tail ih =>
      cases value' with
      | nil => exact absurd (data c List.mem_cons_self) (closes'.not_text same.symm)
      | cons c' tail' =>
          obtain ⟨rfl, later⟩ := List.cons.inj same
          rw [ih (fun d member => data d (List.mem_cons_of_mem _ member))
            (fun d member => data' d (List.mem_cons_of_mem _ member)) later]

theorem plain_not_quoted {value rest tail : List α} (data : ∀ c ∈ value, D.textData c)
    (closes : Closes D rest) : value ++ rest ≠ D.quote :: tail := by
  cases value with
  | nil => exact closes.not_quote
  | cons c value =>
      intro same
      have first := data c List.mem_cons_self
      rw [(List.cons.inj same).1] at first
      exact D.quote_not_text first

/-- A field is read in one way, if what follows it is known to end it. -/
theorem Field.unique {text value text' value' rest rest' : List α} (field : Field D text value)
    (field' : Field D text' value') (closes : Closes D rest) (closes' : Closes D rest')
    (same : text ++ rest = text' ++ rest') : text = text' ∧ value = value' := by
  cases field with
  | plain data =>
      cases field' with
      | plain data' =>
          have values := plain_unique data data' closes closes' same
          exact ⟨values, values⟩
      | escaped _ => exact absurd same (plain_not_quoted data closes)
  | escaped inner =>
      cases field' with
      | plain data' => exact absurd same.symm (plain_not_quoted data' closes')
      | escaped inner' =>
          obtain ⟨rfl, rfl⟩ := inner.unique inner' closes closes' (List.cons.inj same).2
          exact ⟨rfl, rfl⟩

theorem Ends.not_comma {rest tail : List α} (ends : Ends D rest) : rest ≠ D.comma :: tail :=
  fun same => D.comma_ne_break (ends _ _ same)

/-- A line is read in one way. -/
theorem Record.unique {text text' rest rest' : List α} {values values' : List (List α)}
    (record : Record D text values) (record' : Record D text' values') (ends : Ends D rest)
    (ends' : Ends D rest') (same : text ++ rest = text' ++ rest') :
    text = text' ∧ values = values' := by
  induction record generalizing text' values' with
  | last field =>
      cases record' with
      | last field' =>
          obtain ⟨rfl, rfl⟩ := field.unique field' ends.closes ends'.closes same
          exact ⟨rfl, rfl⟩
      | cons field' _ =>
          rw [List.append_assoc] at same
          obtain ⟨rfl, -⟩ := field.unique field' ends.closes (closes_comma _) same
          exact absurd (List.append_cancel_left same) ends.not_comma
  | cons field _ ih =>
      rw [List.append_assoc] at same
      cases record' with
      | last field' =>
          obtain ⟨rfl, -⟩ := field.unique field' (closes_comma _) ends'.closes same
          exact absurd (List.append_cancel_left same).symm ends'.not_comma
      | cons field' tail' =>
          rw [List.append_assoc] at same
          obtain ⟨rfl, rfl⟩ := field.unique field' (closes_comma _) (closes_comma _) same
          obtain ⟨rfl, rfl⟩ := ih tail' (List.cons.inj (List.append_cancel_left same)).2
          exact ⟨rfl, rfl⟩

/-- Two fields or more. -/
def Wide (records : List (List (List α))) : Prop := ∀ values ∈ records, 2 ≤ values.length

/-- Nothing is read as one empty field only. -/
theorem File.wide_ne_nil {text : List α} {records : List (List (List α))}
    (file : File D text records) (wide : Wide records) : text ≠ [] := by
  intro empty
  cases file with
  | last record =>
      have two := wide _ List.mem_cons_self
      cases record with
      | last _ => exact absurd two (by simp)
      | cons _ _ => simp at empty
  | lastBreak _ => simp [Dialect.lineBreak] at empty
  | cons _ _ => simp [Dialect.lineBreak] at empty

/-- What may follow the first record: no more records, with or without a line break, or a line
break and the file of the others. -/
inductive Follows : List α → List (List (List α)) → Prop
  | ended : Follows [] []
  | endedBreak : Follows D.lineBreak []
  | more {rest : List α} {records : List (List (List α))} : File D rest records →
      Follows (D.lineBreak ++ rest) records

theorem Follows.ends {rest : List α} {records : List (List (List α))}
    (follows : Follows (D := D) rest records) : Ends D rest := by
  cases follows with
  | ended => exact ends_nil
  | endedBreak =>
      rw [← List.append_nil D.lineBreak]
      exact ends_lineBreak []
  | more _ => exact ends_lineBreak _

/-- A file begins with its first record, and what follows is a file or nothing. -/
theorem File.first {text : List α} {records : List (List (List α))} (file : File D text records) :
    ∃ head values rest others, text = head ++ rest ∧ records = values :: others ∧
      Record D head values ∧ Follows (D := D) rest others := by
  cases file with
  | last record => exact ⟨_, _, [], [], (List.append_nil _).symm, rfl, record, .ended⟩
  | lastBreak record => exact ⟨_, _, _, [], rfl, rfl, record, .endedBreak⟩
  | cons record tail => exact ⟨_, _, _, _, rfl, rfl, record, .more tail⟩

/-- **One reading.**  The induction is on the records; the first one and what follows it come
apart in both files. -/
theorem File.unique {text : List α} {records records' : List (List (List α))}
    (file : File D text records) (file' : File D text records') (wide : Wide records)
    (wide' : Wide records') : records = records' := by
  induction records generalizing text records' with
  | nil =>
      obtain ⟨_, _, _, _, _, none_, _, _⟩ := file.first
      cases none_
  | cons _ _ ih =>
      obtain ⟨head, values, rest, others, rfl, shape, record, follows⟩ := file.first
      obtain ⟨head', values', rest', others', same, rfl, record', follows'⟩ := file'.first
      obtain ⟨rfl, rfl⟩ := List.cons.inj shape
      obtain ⟨rfl, rfl⟩ := record.unique record' follows.ends follows'.ends same
      have same_rest := List.append_cancel_left same
      congr 1
      have others_wide : Wide _ := fun values member => wide values (List.mem_cons_of_mem _ member)
      have others'_wide : Wide others' := fun values member =>
        wide' values (List.mem_cons_of_mem _ member)
      cases follows with
      | ended =>
          cases follows' with
          | ended => rfl
          | endedBreak => cases same_rest
          | more _ => cases same_rest
      | endedBreak =>
          cases follows' with
          | ended => cases same_rest
          | endedBreak => rfl
          | more tail' =>
              have empty := List.self_eq_append_right.1 same_rest
              exact absurd empty (tail'.wide_ne_nil others'_wide)
      | more tail =>
          cases follows' with
          | ended => cases same_rest
          | endedBreak =>
              have empty := List.append_right_eq_self.1 same_rest
              exact absurd empty (tail.wide_ne_nil others_wide)
          | more tail' =>
              have same_tail := List.append_cancel_left same_rest
              rw [← same_tail] at tail'
              exact ih tail tail' others_wide others'_wide

/-- As many fields in each record as in every other. -/
def Uniform (records : List (List (List α))) : Prop :=
  ∃ width, ∀ values ∈ records, values.length = width

/-- What is read with as many fields throughout, at least two, is read so in one way. -/
theorem File.unique_uniform {text : List α} {records : List (List (List α))}
    (file : File D text records) (uniform : Uniform records) (wide : Wide records)
    (records' : List (List (List α))) :
    File D text records' ∧ Uniform records' ↔ records' = records := by
  constructor
  · rintro ⟨file', width, uniform'⟩
    obtain ⟨head, values, rest, others, split, rfl, record, follows⟩ := file.first
    obtain ⟨head', values', rest', others', split', rfl, record', follows'⟩ := file'.first
    have first := (record.unique record' follows.ends follows'.ends (split.symm.trans split')).2
    have two : 2 ≤ width := by
      have lengths := uniform' values' List.mem_cons_self
      rw [← first] at lengths
      rw [← lengths]
      exact wide values List.mem_cons_self
    have wide' : Wide (values' :: others') := fun other member => by
      rw [uniform' other member]
      exact two
    exact (file.unique file' wide wide').symm
  · rintro rfl
    exact ⟨file, uniform⟩

/-! ## Writing -/

section Write

variable [DecidableEq α]

/-- The value between quotes, its quotes doubled. -/
def quoted (quote : α) (value : List α) : List α :=
  quote :: (value.flatMap fun c => if c = quote then [quote, quote] else [c]) ++ [quote]

theorem escaped_quoted (value : List α) (data : ∀ c ∈ value, c ≠ D.quote → D.escapedData c) :
    Escaped D ((value.flatMap fun c => if c = D.quote then [D.quote, D.quote] else [c]) ++ [D.quote])
      value := by
  induction value with
  | nil => exact .close
  | cons c value ih =>
      have tail := ih fun d member => data d (List.mem_cons_of_mem _ member)
      rw [List.flatMap_cons, List.append_assoc]
      by_cases doubled : c = D.quote
      · rw [if_pos doubled, doubled]
        exact .doubled tail
      · rw [if_neg doubled]
        exact .symbol (data c List.mem_cons_self doubled) tail

/-- Between quotes, with its own quotes doubled, a value is a field if its other symbols may stand
there. -/
theorem field_quoted {value : List α} (data : ∀ c ∈ value, c ≠ D.quote → D.escapedData c) :
    Field D (quoted D.quote value) value :=
  .escaped (escaped_quoted value data)

end Write

/-- Cells with separators between them are a record. -/
theorem record_join {cells values : List (List α)} (fields : List.Forall₂ (Field D) cells values)
    (nonempty : cells ≠ []) : Record D ([D.comma].intercalate cells) values := by
  induction fields with
  | nil => exact absurd rfl nonempty
  | @cons cell value cells values field fields ih =>
      cases fields with
      | nil => simpa using Record.last field
      | cons field' fields' =>
          have tail := ih (List.cons_ne_nil _ _)
          have joined := Record.cons field tail
          simpa [List.intercalate_cons_cons] using joined

/-- Lines are a file of their records, and the last line break ends it. -/
theorem file_lines {lines : List (List α)} {records : List (List (List α))}
    (read : List.Forall₂ (Record D) lines records) (nonempty : lines ≠ []) :
    File D (lines.flatMap fun line => line ++ D.lineBreak) records := by
  induction read with
  | nil => exact absurd rfl nonempty
  | cons record read ih =>
      cases read with
      | nil => simpa using File.lastBreak record
      | cons record' read' =>
          have tail := ih (List.cons_ne_nil _ _)
          rw [List.flatMap_cons, List.append_assoc]
          exact .cons record tail

/-! ## Symbols -/

theorem Record.symbols {text : List α} {values : List (List α)} (record : Record D text values)
    (unquoted : D.quote ∉ text) : ∀ c ∈ text, D.textData c ∨ c = D.comma := by
  induction record with
  | last field =>
      cases field with
      | plain data => exact fun c member => .inl (data c member)
      | escaped _ => exact absurd List.mem_cons_self unquoted
  | cons field _ ih =>
      rw [List.mem_append, List.mem_cons, not_or, not_or] at unquoted
      intro c member
      rcases List.mem_append.1 member with inField | inRest
      · cases field with
        | plain data => exact .inl (data c inField)
        | escaped _ => exact absurd List.mem_cons_self unquoted.1
      · rcases List.mem_cons.1 inRest with comma | inRest
        · exact .inr comma
        · exact ih unquoted.2.2 c inRest

/-- Without quotes, what begins a line break stands in line breaks only. -/
theorem File.symbols {text : List α} {records : List (List (List α))} (file : File D text records)
    (unquoted : D.quote ∉ text) (unbroken : D.breakHead ∉ text) :
    ∀ c ∈ text, D.textData c ∨ c = D.comma := by
  cases file with
  | last record => exact record.symbols unquoted
  | lastBreak _ => exact absurd (List.mem_append_right _ List.mem_cons_self) unbroken
  | cons _ _ => exact absurd (List.mem_append_right _ List.mem_cons_self) unbroken

end CsdPool.Theory.Csv
