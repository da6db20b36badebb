import Relabel.Mapping.Table
import Relabel.Proofs.Steps
import Relabel.Proofs.Text.Lines

/-!
# The format of mapping tables

What the text of a table looks like, said without a reader: of the lines that count the first
declares the namespaces and each other one is a row, with tabs between its columns. Every text that
looks like this is read, and gives the table with these rows. In any other text the first line that
does not fit is blamed.

## Main results

- `reads_iff`: the lines that count.
- `readHeader_eq_ok_iff`, `readRow_eq_ok_iff`: the lines that can be read.
- `Table.parse_eq_error_iff`: the line to blame.
- `Table.parse_spec`: when a text is a table, and which line is wrong in any other.
-/

namespace Relabel.Mapping

/-! ### The format -/

/-- A line without the carriage returns at its end. -/
def IsStripped (raw text : List Char) : Prop :=
  (∃ tail, raw = text ++ tail ∧ ∀ c ∈ tail, c = '\r') ∧ text.getLast? ≠ some '\r'

/-- A line that does not count: white space only, or a comment. -/
def IsIgnored (text : List Char) : Prop :=
  (∀ c ∈ text, Text.isBlank c) ∨ text.head? = some '#'

/-- The lines that count, of all lines from that with a number on. -/
inductive Counts : Nat → List (List Char) → List Line → Prop
  | nil {number : Nat} : Counts number [] []
  | ignore {number : Nat} {raw text : List Char} {raws : List (List Char)} {lines : List Line}
    (hstripped : IsStripped raw text) (hignored : IsIgnored text)
    (hrest : Counts (number + 1) raws lines) : Counts number (raw :: raws) lines
  | count {number : Nat} {raw text : List Char} {raws : List (List Char)} {lines : List Line}
    (hstripped : IsStripped raw text) (hcounts : ¬ IsIgnored text)
    (hrest : Counts (number + 1) raws lines) :
    Counts number (raw :: raws) ({ number, text } :: lines)

/-- The lines of a text that count, with their numbers among all lines. -/
def Reads (text : String) (lines : List Line) : Prop :=
  ∃ raws, Text.Lines text.toList raws ∧ Counts 1 raws lines

/-- A line consists of columns with tabs between them. -/
def Line.Holds (line : Line) (columns : List String) : Prop :=
  columns ≠ [] ∧ (∀ column ∈ columns, '\t' ∉ column.toList) ∧
    line.text = ['\t'].intercalate (columns.map String.toList)

/-- A line declares namespaces. -/
def Line.Declares (line : Line) (namespaces : List String) : Prop :=
  namespaces ≠ [] ∧ "" ∉ namespaces ∧ line.Holds ("v1" :: namespaces)

/-- A row has as many names as there are namespaces. -/
def Row.HasWidth (width : Nat) : Row → Prop
  | .ofClass names => names.length = width
  | .ofField row => row.names.length = width
  | .ofMethod row => row.names.length = width

/-- The columns of a row. -/
def Row.columns : Row → List String
  | .ofClass names => "CLASS" :: names
  | .ofField row => "FIELD" :: row.owner :: row.desc :: row.names
  | .ofMethod row => "METHOD" :: row.owner :: row.desc :: row.names

/-- A line is a row of a table with `width` namespaces. -/
def Line.IsRow (width : Nat) (line : Line) (row : Row) : Prop :=
  row.HasWidth width ∧ line.Holds row.columns

namespace Table

/-- A table has these rows, those of each kind in order. -/
inductive Collects (namespaces : List String) : List Row → Table → Prop
  | nil : Collects namespaces [] { namespaces }
  | ofClass {rows : List Row} {table : Table} {names : List String}
    (h : Collects namespaces rows table) :
    Collects namespaces (.ofClass names :: rows) { table with classes := names :: table.classes }
  | ofField {rows : List Row} {table : Table} {row : MemberNames}
    (h : Collects namespaces rows table) :
    Collects namespaces (.ofField row :: rows) { table with fields := row :: table.fields }
  | ofMethod {rows : List Row} {table : Table} {row : MemberNames}
    (h : Collects namespaces rows table) :
    Collects namespaces (.ofMethod row :: rows) { table with methods := row :: table.methods }

/-- Lines say what is in a table: its namespaces, then its rows. -/
def IsWritten (lines : List Line) (table : Table) : Prop :=
  ∃ header body namespaces rows, lines = header :: body ∧ header.Declares namespaces ∧
    List.Forall₂ (Line.IsRow namespaces.length) body rows ∧ Collects namespaces rows table

/-- The number of the first line that does not fit; 0 where there is no line at all. -/
inductive Blames : List Line → Nat → Prop
  | empty : Blames [] 0
  | header {header : Line} {body : List Line} (h : ∀ namespaces, ¬ header.Declares namespaces) :
    Blames (header :: body) header.number
  | row {header line : Line} {namespaces : List String} {before after : List Line}
    (hheader : header.Declares namespaces)
    (hbefore : ∀ earlier ∈ before, ∃ row, earlier.IsRow namespaces.length row)
    (hline : ∀ row, ¬ line.IsRow namespaces.length row) :
    Blames (header :: before ++ line :: after) line.number

end Table

/-! ### Lines -/

/-- The text of a line is the raw one without the returns at its end. -/
theorem isStripped_iff {raw text : List Char} :
    IsStripped raw text ↔ Text.dropEndWhile (· = '\r') raw = text := by
  have hlast : text.getLast? ≠ some '\r' ↔ ∀ c ∈ text.getLast?, ¬ decide (c = '\r') := by
    cases text.getLast? <;> simp
  rw [Text.dropEndWhile_eq_iff, IsStripped, hlast]
  simp only [decide_eq_true_eq]

/-- A line counts unless it is ignored. -/
theorem counts_iff_not_isIgnored {line : Line} : line.counts ↔ ¬ IsIgnored line.text := by
  rw [IsIgnored, ← Text.trimChars_eq_nil_iff, Line.counts]
  simp

/-- Of numbered lines those count that the reader keeps. -/
theorem counts_iff {number : Nat} {raws : List (List Char)} {lines : List Line} :
    Counts number raws lines ↔
      (((raws.map (Text.dropEndWhile (· = '\r'))).zipIdx number).map
        fun (text, number) => { number, text : Line }).filter Line.counts = lines := by
  -- Each line is ignored or counted on both sides, so the induction goes line by line.
  constructor
  · intro h
    induction h with
    | nil => rfl
    | ignore hstripped hignored _ ih =>
      rw [List.map_cons, List.zipIdx_cons, List.map_cons, isStripped_iff.1 hstripped,
        List.filter_cons_of_neg (mt counts_iff_not_isIgnored.1 (not_not.2 hignored)), ih]
    | count hstripped hcounts _ ih =>
      rw [List.map_cons, List.zipIdx_cons, List.map_cons, isStripped_iff.1 hstripped,
        List.filter_cons_of_pos (counts_iff_not_isIgnored.2 hcounts), ih]
  · rintro rfl
    induction raws generalizing number with
    | nil => exact .nil
    | cons raw raws ih =>
      rw [List.map_cons, List.zipIdx_cons, List.map_cons]
      by_cases hignored : IsIgnored (Text.dropEndWhile (· = '\r') raw)
      · rw [List.filter_cons_of_neg (mt counts_iff_not_isIgnored.1 (not_not.2 hignored))]
        exact .ignore (isStripped_iff.2 rfl) hignored ih
      · rw [List.filter_cons_of_pos (counts_iff_not_isIgnored.2 hignored)]
        exact .count (isStripped_iff.2 rfl) hignored ih

/-- The lines that count are those that the reader keeps. -/
theorem reads_iff {text : String} {lines : List Line} :
    Reads text lines ↔ countedLines text = lines := by
  -- The reader takes one carriage return along with a line feed before it strips the others. Once
  -- stripped, its lines are those of the text.
  have hcounted {raws : List (List Char)} (hraws : Text.Lines text.toList raws) :
      Counts 1 raws lines ↔ countedLines text = lines := by
    rw [counts_iff, ← hraws.map_lineChars, List.zipIdx_map, List.map_map]
    rfl
  constructor
  · rintro ⟨raws, hraws, hlines⟩
    exact (hcounted hraws).1 hlines
  · intro hlines
    obtain ⟨raws, hraws⟩ := Text.exists_lines text.toList
    exact ⟨raws, hraws, (hcounted hraws).2 hlines⟩

/-! ### Columns -/

/-- The columns of a line are what stands between its tabs. -/
theorem Line.holds_iff {line : Line} {columns : List String} :
    line.Holds columns ↔ line.columns = columns := by
  have hmap : line.columns = columns ↔
      Text.splitChars '\t' line.text = columns.map String.toList := by
    constructor
    · rintro rfl
      simp [Line.columns]
    · intro h
      simp [Line.columns, h]
  rw [hmap, Text.splitChars_eq_iff, Holds]
  simp

/-- A reading fails exactly where it gives nothing. -/
theorem exists_eq_error_iff {ε α : Type} {x : Except ε α} :
    (∃ e, x = .error e) ↔ ∀ a, ¬ x = .ok a := by
  cases x <;> simp

/-- A header is read exactly where the line declares its namespaces. -/
theorem readHeader_eq_ok_iff {line : Line} {namespaces : List String} :
    readHeader line = .ok namespaces ↔ line.Declares namespaces := by
  rw [Line.Declares, Line.holds_iff]
  constructor
  -- The conditions of the header are those the reader checks, in the same order.
  · intro h
    unfold readHeader at h
    split at h
    · next declared hcolumns =>
      split at h
      · cases h
      · next hnames =>
        obtain rfl := Except.ok.inj h
        rw [Bool.or_eq_true, not_or] at hnames
        exact ⟨by simpa using hnames.1, by simpa using hnames.2, hcolumns⟩
    · cases h
  · rintro ⟨hne, hnames, hcolumns⟩
    simp [readHeader, hcolumns, hne, hnames]

/-- A header is refused exactly where the line declares no namespaces. -/
theorem exists_readHeader_eq_error_iff {line : Line} :
    (∃ e, readHeader line = .error e) ↔ ∀ namespaces, ¬ line.Declares namespaces := by
  simp only [exists_eq_error_iff, readHeader_eq_ok_iff]

/-- A header that is not read is blamed. -/
theorem line_of_readHeader_eq_error {line : Line} {e : TableError}
    (h : readHeader line = .error e) : e.line = line.number := by
  unfold readHeader at h
  split at h
  · split at h
    · obtain rfl := Except.error.inj h
      rfl
    · cases h
  · obtain rfl := Except.error.inj h
    rfl

/-- A member is read exactly where the columns hold its owner, type and names. -/
theorem readMember_eq_ok_iff {make : MemberNames → Row} {width : Nat} {line : Line} {kind : String}
    {columns : List String} {row : Row} :
    readMember make width line kind columns = .ok row ↔ ∃ names : MemberNames,
      make names = row ∧ names.names.length = width ∧
        columns = names.owner :: names.desc :: names.names := by
  constructor
  · intro h
    unfold readMember at h
    split at h
    · split at h
      · next hwidth => exact ⟨_, Except.ok.inj h, hwidth, rfl⟩
      · cases h
    · cases h
  · rintro ⟨names, rfl, hwidth, rfl⟩
    exact if_pos hwidth

/-- A refused member is blamed on its line. -/
theorem line_of_readMember_eq_error {make : MemberNames → Row} {width : Nat} {line : Line}
    {kind : String} {columns : List String} {e : TableError}
    (h : readMember make width line kind columns = .error e) : e.line = line.number := by
  unfold readMember at h
  split at h
  · split at h
    · cases h
    · obtain rfl := Except.error.inj h
      rfl
  · obtain rfl := Except.error.inj h
    rfl

/-- A row is read exactly where the line is that row. -/
theorem readRow_eq_ok_iff {width : Nat} {line : Line} {row : Row} :
    readRow width line = .ok row ↔ line.IsRow width row := by
  rw [Line.IsRow, Line.holds_iff]
  constructor
  -- One case for each kind of row, and two for lines that are none.
  · intro h
    unfold readRow at h
    split at h
    · next names hcolumns =>
      split at h
      · next hwidth =>
        obtain rfl := Except.ok.inj h
        exact ⟨hwidth, hcolumns⟩
      · cases h
    · next columns hcolumns =>
      obtain ⟨names, rfl, hwidth, rfl⟩ := readMember_eq_ok_iff.1 h
      exact ⟨hwidth, hcolumns⟩
    · next columns hcolumns =>
      obtain ⟨names, rfl, hwidth, rfl⟩ := readMember_eq_ok_iff.1 h
      exact ⟨hwidth, hcolumns⟩
    · cases h
    · cases h
  · rintro ⟨hwidth, hcolumns⟩
    unfold readRow
    cases row with
    | ofClass names => rw [hcolumns]; exact if_pos hwidth
    | ofField names => rw [hcolumns]; exact if_pos hwidth
    | ofMethod names => rw [hcolumns]; exact if_pos hwidth

/-- A row is refused exactly where the line is no row. -/
theorem exists_readRow_eq_error_iff {width : Nat} {line : Line} :
    (∃ e, readRow width line = .error e) ↔ ∀ row, ¬ line.IsRow width row := by
  simp only [exists_eq_error_iff, readRow_eq_ok_iff]

/-- A row that is not read is blamed. -/
theorem line_of_readRow_eq_error {width : Nat} {line : Line} {e : TableError}
    (h : readRow width line = .error e) : e.line = line.number := by
  -- One case for each pattern of columns, in the order of the reader.
  unfold readRow at h
  split at h
  · split at h
    · cases h
    · obtain rfl := Except.error.inj h
      rfl
  · exact line_of_readMember_eq_error h
  · exact line_of_readMember_eq_error h
  · obtain rfl := Except.error.inj h
    rfl
  · obtain rfl := Except.error.inj h
    rfl

/-! ### Tables -/

namespace Table

/-- The rows of a table are collected by kind, each kind in order. -/
theorem collects_iff {namespaces : List String} {rows : List Row} {table : Table} :
    Collects namespaces rows table ↔ ofRows namespaces rows = table := by
  constructor
  · intro h
    induction h with
    | nil => rfl
    | ofClass _ ih | ofField _ ih | ofMethod _ ih =>
      subst ih
      rfl
  · rintro rfl
    induction rows with
    | nil => exact .nil
    | cons row rows ih =>
      cases row with
      | ofClass => exact ih.ofClass
      | ofField => exact ih.ofField
      | ofMethod => exact ih.ofMethod

variable {text : String} {table : Table}

/-- A text is read exactly where its counted lines write the table. -/
theorem parse_eq_ok_iff : parse text = .ok table ↔ IsWritten (countedLines text) table := by
  unfold parse
  -- Without any line there is no header.
  cases countedLines text with
  | nil =>
    refine ⟨fun h => ?_, fun ⟨header, body, _, _, h, _⟩ => ?_⟩ <;> cases h
  | cons header body =>
    simp only [Except.bind_eq_ok, Except.pure_eq_ok]
    constructor
    · rintro ⟨namespaces, hheader, rows, hrows, hcollects⟩
      exact ⟨header, body, namespaces, rows, rfl, readHeader_eq_ok_iff.1 hheader,
        (forall₂_of_mapM_eq_ok hrows).imp fun _ _ => readRow_eq_ok_iff.1, collects_iff.2 hcollects⟩
    · rintro ⟨_, _, namespaces, rows, ⟨⟩, hheader, hrows, hcollects⟩
      exact ⟨namespaces, readHeader_eq_ok_iff.2 hheader, rows,
        mapM_eq_ok_of_forall₂ (hrows.imp fun _ _ => readRow_eq_ok_iff.2), collects_iff.1 hcollects⟩

/-- A text is refused at a line exactly where the format blames that line. -/
theorem parse_eq_error_iff {number : Nat} :
    (∃ e, parse text = .error e ∧ e.line = number) ↔ Blames (countedLines text) number := by
  unfold parse
  generalize countedLines text = lines
  constructor
  · rintro ⟨e, h, rfl⟩
    cases lines with
    | nil =>
      obtain rfl := Except.error.inj h
      exact .empty
    | cons header body =>
      simp only [Except.bind_eq_error, Except.pure_eq_error, and_false, exists_false,
        or_false] at h
      -- Rows are not looked at before the header is read.
      rcases h with hheader | ⟨namespaces, hheader, hrows⟩
      · rw [line_of_readHeader_eq_error hheader]
        exact .header (exists_readHeader_eq_error_iff.1 ⟨e, hheader⟩)
      · obtain ⟨before, line, after, rfl, hbefore, hline⟩ := mapM_eq_error_iff.1 hrows
        rw [line_of_readRow_eq_error hline]
        simp only [readRow_eq_ok_iff] at hbefore
        exact .row (readHeader_eq_ok_iff.1 hheader) hbefore
          (exists_readRow_eq_error_iff.1 ⟨e, hline⟩)
  · intro h
    cases h with
    | empty => exact ⟨.empty, rfl, rfl⟩
    | header hheader =>
      obtain ⟨e, he⟩ := exists_readHeader_eq_error_iff.2 hheader
      exact ⟨e, Except.bind_eq_error.2 (.inl he), line_of_readHeader_eq_error he⟩
    | row hheader hbefore hline =>
      obtain ⟨e, he⟩ := exists_readRow_eq_error_iff.2 hline
      simp only [← readRow_eq_ok_iff] at hbefore
      refine ⟨e, Except.bind_eq_error.2 (.inr ⟨_, readHeader_eq_ok_iff.2 hheader,
        Except.bind_eq_error.2 (.inl ?_)⟩), line_of_readRow_eq_error he⟩
      exact mapM_eq_error_iff.2 ⟨_, _, _, rfl, hbefore, he⟩

/-- A text has certain lines that count. It is the text of a table iff they say what is in that
table. Otherwise the first of them that does not fit is blamed. -/
theorem parse_spec (text : String) : ∃ lines, (∀ others, Reads text others ↔ others = lines) ∧
    (∀ table, parse text = .ok table ↔ IsWritten lines table) ∧
      ∀ number, (∃ e, parse text = .error e ∧ e.line = number) ↔ Blames lines number :=
  ⟨countedLines text, fun _ => reads_iff.trans eq_comm, fun _ => parse_eq_ok_iff,
    fun _ => parse_eq_error_iff⟩

/-- Lines that do not count are numbered too, and the first of two wrong rows is blamed. -/
example : parse "# a\nv1\ts\tt\r\n \t\nCLASS\tA\t\nCLASS\tA\nROW\n" =
    .error (.columns 5 "CLASS" 2 3) := by
  decide +kernel

end Table

end Relabel.Mapping
