import TraceRecovery.Text.Blank

/-!
# Comma-separated values

A table as text: rows end with a line feed, a carriage return or both, fields with a comma. A quote
at the very start of a field opens a quoted part, in which commas and line ends belong to the field
and a quote is written twice. What follows the quote that closes it is kept as it stands, and a
quoted part without closing quote goes on to the end. Lines without any character are no rows.

`quotedField` writes a field so that it is read back as it was; `rowsFrom_quotedField` says so.
-/

namespace TraceRecovery.Csv

/-- Where in a row reading stands. -/
inductive Place where
  /-- Nothing of the row has been read. -/
  | rowStart
  /-- Nothing of the field has been read. -/
  | fieldStart
  /-- In a field, outside its quoted part. -/
  | bare
  /-- In the quoted part of a field. -/
  | quoted
  /-- Behind a quote in the quoted part. -/
  | behindQuote
deriving DecidableEq, Repr

/-- Whether a character ends a row. -/
def isLineEnd (c : Char) : Bool := c == '\n' || c == '\r'

/-- The fields read so far together with the one that ends here, both reversed. -/
def endField (field : List Char) (row : List String) : List String :=
  String.ofList field.reverse :: row

/-- The rows of the rest of a text. What has been read of the current field and the fields before
it in the row are given, last first. -/
def rowsFrom : Place → List Char → List String → List Char → List (List String)
  | .rowStart, _, _, [] => []
  | _, field, row, [] => [(endField field row).reverse]
  | .quoted, field, row, c :: rest =>
    if c = '"' then rowsFrom .behindQuote field row rest
    else rowsFrom .quoted (c :: field) row rest
  | place, field, row, c :: rest =>
    if c = '"' ∧ (place = .rowStart ∨ place = .fieldStart) then rowsFrom .quoted field row rest
    else if c = '"' ∧ place = .behindQuote then rowsFrom .quoted (c :: field) row rest
    else if c = ',' then rowsFrom .fieldStart [] (endField field row) rest
    else if isLineEnd c then
      if place = .rowStart then rowsFrom .rowStart [] [] rest
      else (endField field row).reverse :: rowsFrom .rowStart [] [] rest
    else rowsFrom .bare (c :: field) row rest

/-- The text without the mark that tells its encoding. -/
def withoutMark : List Char → List Char
  | '\ufeff' :: rest => rest
  | s => s

/-- The rows of a text. -/
def rows (text : String) : List (List String) := rowsFrom .rowStart [] [] (withoutMark text.toList)

/-- The position of a column in a header; none if the column is missing or there are several. -/
def column? (header : List String) (name : String) : Option Nat :=
  if header.count name = 1 then header.idxOf? name else none

/-- The fields of a row in some columns. A row must have as many fields as the header. -/
def select? (header columns row : List String) : Option (List String) :=
  if row.length = header.length then
    columns.mapM fun name => column? header name >>= fun i => row[i]?
  else none

/-- The fields of all rows behind the header in some columns, which are named in the header. White
space around a field or a name does not belong to it. A table without rows may lack columns. -/
def table? (columns : List String) (text : String) : Option (List (List String)) :=
  match (rows text).map fun row => row.map Text.trim with
  | [] => some []
  | header :: body => body.mapM (select? header columns)

/-- A field between quotes: the quotes in it are doubled. -/
def quotedField (s : List Char) : List Char :=
  '"' :: s.flatMap (fun c => if c = '"' then ['"', '"'] else [c]) ++ ['"']

theorem rowsFrom_quoted (s field : List Char) (row : List String) (rest : List Char) :
    rowsFrom .quoted field row
        (s.flatMap (fun c => if c = '"' then ['"', '"'] else [c]) ++ '"' :: rest) =
      rowsFrom .behindQuote (s.reverse ++ field) row rest := by
  induction s generalizing field with
  | nil => simp [rowsFrom]
  | cons c s ih =>
    by_cases h : c = '"'
    · subst h
      simpa [rowsFrom] using ih ('"' :: field)
    · simpa [rowsFrom, h] using ih (c :: field)

/-- A field between quotes is read as it was, up to the closing quote. -/
theorem rowsFrom_quotedField (place : Place) (h : place = .rowStart ∨ place = .fieldStart)
    (s : List Char) (row : List String) (rest : List Char) :
    rowsFrom place [] row (quotedField s ++ rest) =
      rowsFrom .behindQuote s.reverse row rest := by
  have := rowsFrom_quoted s [] row rest
  rcases h with rfl | rfl <;> simpa [quotedField, rowsFrom] using this

end TraceRecovery.Csv
