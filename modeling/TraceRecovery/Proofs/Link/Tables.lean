import TraceRecovery.Link.GoldStandard

/-!
# Gold standards as tables

A gold standard is written as a table of comma-separated values with a line for each pair, in which
both ids stand between quotes (`GoldStandard.toText`). Whatever characters the ids consist of, the
pairs are read back except for white space around their ids (`GoldStandard.ofText_eq`).

A field is read up to what stands behind it. `Csv.EndsRow` says of the rest of a text that it ends
the row at hand, and which rows follow; line ends make up such a rest (`Csv.endsRow_lineEnds`), and
so do further lines behind one (`Csv.endsRow_lines`).
-/

namespace TraceRecovery

/-! ## Rows -/

namespace Csv

variable {place : Place} {ends lineEnd rest : List Char} {more : List (List String)}

/-- Reading stands behind a field. -/
def Behind (place : Place) : Prop := place = .bare ∨ place = .behindQuote

/-- The rest of a text ends the row at hand, and some rows follow. -/
def EndsRow (rest : List Char) (more : List (List String)) : Prop :=
  ∀ place field row, Behind place →
    rowsFrom place field row rest = (endField field row).reverse :: more

/-- A text consists of line ends. -/
def IsLineEnds (ends : List Char) : Prop := ∀ c ∈ ends, isLineEnd c = true

instance (ends : List Char) : Decidable (IsLineEnds ends) := List.decidableBAll _ ends

theorem rowsFrom_comma (h : Behind place) (field : List Char) (row : List String)
    (rest : List Char) :
    rowsFrom place field row (',' :: rest) = rowsFrom .fieldStart [] (endField field row) rest := by
  rcases h with rfl | rfl <;> simp [rowsFrom]

theorem endsRow_nil : EndsRow [] [] := by
  rintro place field row (rfl | rfl) <;> rfl

theorem isLineEnd_ne {c d : Char} (h : isLineEnd c = true) (hd : isLineEnd d = false) : c ≠ d := by
  rintro rfl
  exact Bool.false_ne_true (hd.symm.trans h)

theorem endsRow_cons {c : Char} (h : isLineEnd c = true) (rest : List Char) :
    EndsRow (c :: rest) (rowsFrom .rowStart [] [] rest) := by
  have hquote : c ≠ '"' := isLineEnd_ne h rfl
  have hcomma : c ≠ ',' := isLineEnd_ne h rfl
  rintro place field row (rfl | rfl) <;> simp [rowsFrom, hquote, hcomma, h]

/-- Line ends in front of a row are no rows. -/
theorem rowsFrom_lineEnds (h : IsLineEnds ends) (rest : List Char) :
    rowsFrom .rowStart [] [] (ends ++ rest) = rowsFrom .rowStart [] [] rest := by
  induction ends with
  | nil => rfl
  | cons c ends ih =>
    obtain ⟨hc, hends⟩ := List.forall_mem_cons.mp h
    have hquote : c ≠ '"' := isLineEnd_ne hc rfl
    have hcomma : c ≠ ',' := isLineEnd_ne hc rfl
    simpa [rowsFrom, hquote, hcomma, hc] using ih hends

theorem endsRow_append (h : IsLineEnds lineEnd) (hne : lineEnd ≠ []) (rest : List Char) :
    EndsRow (lineEnd ++ rest) (rowsFrom .rowStart [] [] rest) := by
  obtain ⟨c, ends, rfl⟩ := List.exists_cons_of_ne_nil hne
  obtain ⟨hc, hends⟩ := List.forall_mem_cons.mp h
  rw [← rowsFrom_lineEnds hends rest]
  exact endsRow_cons hc (ends ++ rest)

theorem endsRow_lineEnds (h : IsLineEnds ends) : EndsRow ends [] := by
  cases ends with
  | nil => exact endsRow_nil
  | cons c ends =>
    have hrest := endsRow_append h (List.cons_ne_nil c ends) []
    rwa [List.append_nil] at hrest

/-- A field that can stand without quotes. -/
def IsPlain (s : List Char) : Prop := s ≠ [] ∧ ∀ c ∈ s, c ≠ '"' ∧ c ≠ ',' ∧ isLineEnd c = false

instance (s : List Char) : Decidable (IsPlain s) :=
  haveI := List.decidableBAll (fun c => c ≠ '"' ∧ c ≠ ',' ∧ isLineEnd c = false) s
  inferInstanceAs (Decidable (_ ∧ _))

theorem rowsFrom_bare {s : List Char} (h : ∀ c ∈ s, c ≠ '"' ∧ c ≠ ',' ∧ isLineEnd c = false)
    (field : List Char) (row : List String) (rest : List Char) :
    rowsFrom .bare field row (s ++ rest) = rowsFrom .bare (s.reverse ++ field) row rest := by
  induction s generalizing field with
  | nil => rfl
  | cons c s ih =>
    obtain ⟨⟨hquote, hcomma, hline⟩, hs⟩ := List.forall_mem_cons.mp h
    have hread := ih hs (c :: field)
    simpa [rowsFrom, hquote, hcomma, hline] using hread

/-- A field without quotes is read as it is. -/
theorem rowsFrom_plain (hplace : place = .rowStart ∨ place = .fieldStart) {s : List Char}
    (h : IsPlain s) (row : List String) (rest : List Char) :
    rowsFrom place [] row (s ++ rest) = rowsFrom .bare s.reverse row rest := by
  obtain ⟨hne, hplain⟩ := h
  obtain ⟨c, s, rfl⟩ := List.exists_cons_of_ne_nil hne
  obtain ⟨⟨hquote, hcomma, hline⟩, hs⟩ := List.forall_mem_cons.mp hplain
  have hread := rowsFrom_bare hs [c] row rest
  rcases hplace with rfl | rfl <;> simpa [rowsFrom, hquote, hcomma, hline] using hread

/-- A row with every field between quotes. -/
def quotedRow : List String → List Char
  | [] => []
  | [s] => quotedField s.toList
  | s :: rest => quotedField s.toList ++ ',' :: quotedRow rest

theorem rowsFrom_quotedRow (h : EndsRow rest more)
    (hplace : place = .rowStart ∨ place = .fieldStart) {fields : List String} (hne : fields ≠ [])
    (row : List String) :
    rowsFrom place [] row (quotedRow fields ++ rest) = (row.reverse ++ fields) :: more := by
  induction fields generalizing place row with
  | nil => exact absurd rfl hne
  | cons s fields ih =>
    cases fields with
    | nil =>
      rw [quotedRow, rowsFrom_quotedField place hplace, h _ _ _ (.inr rfl)]
      simp [endField]
    | cons next fields =>
      rw [quotedRow, List.append_assoc, rowsFrom_quotedField place hplace, List.cons_append,
        rowsFrom_comma (.inr rfl), ih (.inr rfl) (List.cons_ne_nil _ _)]
      · simp [endField]
      · exact nofun

/-- Further lines, each behind a line end. -/
theorem endsRow_lines (h : IsLineEnds lineEnd) (hne : lineEnd ≠ []) (hends : IsLineEnds ends)
    {rows : List (List String)} (hrows : ∀ fields ∈ rows, fields ≠ []) :
    EndsRow (rows.flatMap (fun fields => lineEnd ++ quotedRow fields) ++ ends) rows := by
  induction rows with
  | nil => exact endsRow_lineEnds hends
  | cons fields rows ih =>
    obtain ⟨hfields, hrows⟩ := List.forall_mem_cons.mp hrows
    have hread := rowsFrom_quotedRow (ih hrows) (.inl rfl) hfields []
    rw [List.flatMap_cons, List.append_assoc, List.append_assoc]
    have hline := endsRow_append h hne
      (quotedRow fields ++ (rows.flatMap (fun fields => lineEnd ++ quotedRow fields) ++ ends))
    rwa [hread] at hline

end Csv

theorem Text.toList_join (sep s : String) (rest : List String) :
    (join sep (s :: rest)).toList = s.toList ++ rest.flatMap fun t => sep.toList ++ t.toList := by
  induction rest generalizing s with
  | nil => simp [join]
  | cons t rest ih => simp [join, ih]

/-! ## Gold standards -/

namespace GoldStandard

open Csv

/-- A line for each pair behind the names of the columns. -/
def toText (lineEnd : String) (pairs : List LinkPair) : String :=
  Text.join lineEnd ("architecture_id,code_id" ::
    pairs.map fun p => String.ofList (quotedRow [p.item, p.unit]))

variable {lineEnd tail : String}

theorem rowsFrom_columns {rest : List Char} {more : List (List String)} (h : EndsRow rest more) :
    rowsFrom .rowStart [] [] ("architecture_id,code_id".toList ++ rest) = columns :: more := by
  have htext : "architecture_id,code_id".toList =
      "architecture_id".toList ++ ',' :: "code_id".toList := by decide
  have hitem : IsPlain "architecture_id".toList := by decide
  have hunit : IsPlain "code_id".toList := by decide
  rw [htext, List.append_assoc, rowsFrom_plain (.inl rfl) hitem, List.cons_append,
    rowsFrom_comma (.inl rfl), rowsFrom_plain (.inr rfl) hunit, h _ _ _ (.inl rfl)]
  simp [endField, columns]

theorem rows_toText (h : IsLineEnds lineEnd.toList) (hne : lineEnd ≠ "")
    (htail : IsLineEnds tail.toList) (pairs : List LinkPair) :
    rows (toText lineEnd pairs ++ tail) = columns :: pairs.map fun p => [p.item, p.unit] := by
  have htext : (toText lineEnd pairs ++ tail).toList = "architecture_id,code_id".toList ++
      ((pairs.map fun p => [p.item, p.unit]).flatMap
        (fun fields => lineEnd.toList ++ quotedRow fields) ++ tail.toList) := by
    rw [String.toList_append, toText, Text.toList_join, List.append_assoc]
    simp [List.flatMap_map]
  have hmore : EndsRow ((pairs.map fun p => [p.item, p.unit]).flatMap
      (fun fields => lineEnd.toList ++ quotedRow fields) ++ tail.toList)
      (pairs.map fun p => [p.item, p.unit]) :=
    endsRow_lines h (by simpa using hne) htail (by simp)
  rw [rows, htext]
  exact rowsFrom_columns hmore

/-- A pair without the white space around its ids. -/
def trimmed (p : LinkPair) : LinkPair := ⟨Text.trim p.item, Text.trim p.unit⟩

theorem table?_toText (h : IsLineEnds lineEnd.toList) (hne : lineEnd ≠ "")
    (htail : IsLineEnds tail.toList) (pairs : List LinkPair) :
    table? columns (toText lineEnd pairs ++ tail) =
      some (pairs.map fun p => [Text.trim p.item, Text.trim p.unit]) := by
  have hcolumns : columns.map Text.trim = columns := by decide
  rw [table?, rows_toText h hne htail, List.map_cons, hcolumns, List.map_map]
  show (pairs.map fun p => [Text.trim p.item, Text.trim p.unit]).mapM (select? columns columns) = _
  rw [List.mapM_map]
  exact List.mapM_pure

theorem ofText_eq (h : IsLineEnds lineEnd.toList) (hne : lineEnd ≠ "")
    (htail : IsLineEnds tail.toList) (pairs : List LinkPair) :
    ofText (toText lineEnd pairs ++ tail) = .ok (ofPairs (pairs.map trimmed)) := by
  have hpairs : (pairs.map fun p => [Text.trim p.item, Text.trim p.unit]).mapM pairOfFields? =
      some (pairs.map trimmed) := by
    rw [List.mapM_map]
    exact List.mapM_pure
  simp only [ofText, table?_toText h hne htail, Option.bind_some, Option.bind_eq_bind, hpairs]

theorem trimmed_eq {p : LinkPair} (h : Text.Trimmed p.item ∧ Text.Trimmed p.unit) :
    trimmed p = p := by
  rw [trimmed, h.1.trim_eq, h.2.trim_eq]

theorem ofPairs_congr {pairs listed : List LinkPair} (h : ∀ p, p ∈ listed ↔ p ∈ pairs) :
    ofPairs listed = ofPairs pairs :=
  congrArg mk (SortedSet.ext_mem fun p => by simp only [SortedSet.mem_ofList, h])

/-- Pairs that are written as a table are read back without the white space around their ids,
whatever else the ids contain and whether or not the last line is ended. If no id begins or ends
with white space, these are the pairs themselves. Neither the order of the lines nor repeated lines
matter. -/
theorem tables_read_back (lineEnd tail : String) (h : IsLineEnds lineEnd.toList)
    (hne : lineEnd ≠ "") (htail : IsLineEnds tail.toList) (pairs : List LinkPair) :
    ofText (toText lineEnd pairs ++ tail) = .ok (ofPairs (pairs.map trimmed)) ∧
      ((∀ p ∈ pairs, Text.Trimmed p.item ∧ Text.Trimmed p.unit) →
        ofText (toText lineEnd pairs ++ tail) = .ok (ofPairs pairs) ∧
          ∀ listed : List LinkPair, (∀ p, p ∈ listed ↔ p ∈ pairs) →
            ofText (toText lineEnd listed ++ tail) = .ok (ofPairs pairs)) := by
  refine ⟨ofText_eq h hne htail pairs, fun htrimmed => ?_⟩
  have hlisted : ∀ listed : List LinkPair, (∀ p, p ∈ listed ↔ p ∈ pairs) →
      ofText (toText lineEnd listed ++ tail) = .ok (ofPairs pairs) := by
    intro listed hsame
    have hkept : listed.map trimmed = listed :=
      (List.map_congr_left fun p hp => trimmed_eq (htrimmed p ((hsame p).mp hp))).trans
        (List.map_id listed)
    rw [ofText_eq h hne htail, hkept, ofPairs_congr hsame]
  exact ⟨hlisted pairs fun p => Iff.rfl, hlisted⟩

/-- Ids with commas, quotes and line ends, and one without any character, in lines that come in
another order and twice. -/
theorem tables_read_back_of_two :
    let pairs : List LinkPair := [⟨"a,\"b\"", "x\ny"⟩, ⟨"", "src/z"⟩]
    toText "\n" pairs ++ "\n" =
        "architecture_id,code_id\n\"a,\"\"b\"\"\",\"x\ny\"\n\"\",\"src/z\"\n" ∧
      ofText (toText "\n" pairs ++ "\n") = .ok (ofPairs pairs) ∧
      ofText (toText "\r\n" [⟨"", "src/z"⟩, ⟨"a,\"b\"", "x\ny"⟩, ⟨"", "src/z"⟩] ++ "") =
        .ok (ofPairs pairs) ∧
      ofText (toText "\n" [⟨" a ", "x"⟩] ++ "\n") = .ok (ofPairs [⟨"a", "x"⟩]) := by
  intro pairs
  have htrimmed : ∀ p ∈ pairs, Text.Trimmed p.item ∧ Text.Trimmed p.unit := by decide
  obtain ⟨-, hread⟩ := tables_read_back "\n" "\n" (by decide) (by decide) (by decide) pairs
  obtain ⟨-, hlisted⟩ := tables_read_back "\r\n" "" (by decide) (by decide) (by decide) pairs
  obtain ⟨hblank, -⟩ :=
    tables_read_back "\n" "\n" (by decide) (by decide) (by decide) [⟨" a ", "x"⟩]
  refine ⟨by decide, (hread htrimmed).1, (hlisted htrimmed).2 _ fun p => ?_, hblank⟩
  simp [pairs, or_comm]

end GoldStandard

end TraceRecovery
