import FrameQuery.Proofs.Frame.SchemaLists
import FrameQuery.Proofs.Types.Spelling

/-!
# The columns of schema documents

Which column an entry of a document denotes, and when it denotes none. A document is accepted
exactly if each of its entries denotes a column, and each entry does so on its own: of the
enumerations, it only depends on the first one that it names.
-/

namespace FrameQuery.Schema

/-- The type of a column names an enumeration. -/
def ColumnEntry.NamesEnum (entry : ColumnEntry) : Prop :=
  ∃ kind, entry.kind = some kind ∧ kind ≠ "primitiveSchemaColumn"

/-- The column that an entry denotes: one of the primitive type with the name that is given, or else
of the precise type that is spelled, unless the type names an enumeration. Then the first of the
enumerations with this type gives the values. -/
inductive ColumnEntry.Denotes (enums : List EnumEntry) (entry : ColumnEntry) : Column → Prop
  | primitive {type : PrimitiveType} (plain : ¬entry.NamesEnum) (named : type.name = entry.type) :
    Denotes enums entry { name := entry.name, type }
  | precise {type : PreciseType} (plain : ¬entry.NamesEnum)
    (other : ∀ type : PrimitiveType, type.name ≠ entry.type)
    (spelled : type.Spelling entry.type.toList) (scaled : type.WellScaled) :
    Denotes enums entry (.precise entry.name type)
  | enumeration {before after : List EnumEntry} {values : List String} (kind : entry.NamesEnum)
    (found : enums = before ++ ⟨entry.type, values⟩ :: after)
    (first : ∀ other ∈ before, other.type ≠ entry.type) :
    Denotes enums entry (.ofEnum entry.name ⟨entry.type, values⟩)

/-- No type has the name that an entry gives: neither a primitive type nor a precise one, or no
enumeration if it names one. -/
def ColumnEntry.Unknown (enums : List EnumEntry) (entry : ColumnEntry) : Prop :=
  (¬entry.NamesEnum ∧ (∀ type : PrimitiveType, type.name ≠ entry.type) ∧
      ∀ type : PreciseType, type.Spelling entry.type.toList → ¬type.WellScaled) ∨
    entry.NamesEnum ∧ ∀ other ∈ enums, other.type ≠ entry.type

/-- A text is JSON text of a value that states a document. -/
def Document.WrittenIn (document : Document) (text : String) : Prop :=
  ∃ json, Json.ofText? text = some json ∧ document.StatedBy json

/-! ### Single columns -/

/-- A primitive type is found exactly by its name. -/
theorem ofName?_eq_some_iff {name : String} {type : PrimitiveType} :
    Named.ofName? name = some type ↔ type.name = name := by
  constructor
  · intro h
    rw [Named.ofName?] at h
    have named := List.find?_some h
    exact beq_iff_eq.mp named
  · rintro rfl
    cases type <;> rfl

/-- A primitive type is not found exactly if none has the name. -/
theorem ofName?_eq_none_iff {name : String} :
    (Named.ofName? name : Option PrimitiveType) = none ↔
      ∀ type : PrimitiveType, type.name ≠ name := by
  rw [Option.eq_none_iff_forall_ne_some]
  exact forall_congr' fun type ↦ not_congr ofName?_eq_some_iff

variable {entry : ColumnEntry} {enums : List EnumEntry}

/-- A column is of a primitive or precise type unless it names an enumeration. -/
theorem ColumnEntry.isPrimitive_iff : entry.isPrimitive = true ↔ ¬entry.NamesEnum := by
  rw [isPrimitive, NamesEnum]
  cases entry.kind with
  | none => simp
  | some kind => simp

/-- A column that does not name an enumeration either denotes a column, or its type is unknown. -/
private theorem columnOfType_cases (plain : ¬entry.NamesEnum) :
    (∃ column, columnOfType entry.name entry.type = .ok column ∧ entry.Denotes enums column) ∨
      entry.Unknown enums ∧
        columnOfType entry.name entry.type = fail (.columnTypeName entry.type) := by
  rw [columnOfType]
  cases primitive : (Named.ofName? entry.type : Option PrimitiveType) with
  | some type => exact .inl ⟨_, rfl, .primitive plain (ofName?_eq_some_iff.mp primitive)⟩
  | none =>
    have other := ofName?_eq_none_iff.mp primitive
    cases precise : PreciseType.ofText entry.type with
    | ok type =>
      obtain ⟨spelled, scaled⟩ := PreciseType.ofText_eq_ok_iff.mp precise
      exact .inl ⟨_, rfl, .precise plain other spelled scaled⟩
    | error e =>
      refine .inr ⟨.inl ⟨plain, other, fun type spelled scaled ↦ ?_⟩, rfl⟩
      rw [PreciseType.ofText_eq_ok_iff.mpr ⟨spelled, scaled⟩] at precise
      cases precise

/-- An entry either denotes the column that is made of it, or its type is unknown and no column is
made of it. -/
theorem ColumnEntry.column_cases (enums : List EnumEntry) (entry : ColumnEntry) :
    (∃ column, entry.column enums = .ok column ∧ entry.Denotes enums column) ∨
      entry.Unknown enums ∧ ∃ e, entry.column enums = .error e ∧ e.kind = .validation := by
  rw [column]
  by_cases plain : entry.isPrimitive = true
  · rw [if_pos plain]
    rcases columnOfType_cases (isPrimitive_iff.mp plain) with denoted | ⟨unknown, failed⟩
    · exact .inl denoted
    · exact .inr ⟨unknown, _, failed, rfl⟩
  · rw [if_neg plain]
    have kind := not_not.mp (mt isPrimitive_iff.mpr plain)
    cases search : enums.find? (·.type == entry.type) with
    | some found =>
      obtain ⟨named, before, after, he, first⟩ := List.find?_eq_some_iff_append.mp search
      obtain ⟨type, values⟩ := found
      obtain rfl : type = entry.type := beq_iff_eq.mp named
      refine .inl ⟨_, rfl, .enumeration kind he fun other ho ↦ ?_⟩
      simpa using first other ho
    | none =>
      refine .inr ⟨.inr ⟨kind, fun other ho ↦ ?_⟩, _, rfl, rfl⟩
      simpa using List.find?_eq_none.mp search other ho

/-- The column that an entry denotes is made of it. -/
theorem ColumnEntry.Denotes.column_eq {column : Column} (h : entry.Denotes enums column) :
    entry.column enums = .ok column := by
  rw [ColumnEntry.column]
  cases h with
  | primitive plain named =>
    rw [if_pos (isPrimitive_iff.mpr plain), columnOfType, ofName?_eq_some_iff.mpr named]
  | precise plain other spelled scaled =>
    rw [if_pos (isPrimitive_iff.mpr plain), columnOfType, ofName?_eq_none_iff.mpr other,
      PreciseType.ofText_eq_ok_iff.mpr ⟨spelled, scaled⟩]
  | @enumeration before after values kind found first =>
    have search : enums.find? (·.type == entry.type) = some ⟨entry.type, values⟩ :=
      List.find?_eq_some_iff_append.mpr ⟨by simp, before, after, found, by simpa using first⟩
    rw [if_neg (mt isPrimitive_iff.mp (not_not.mpr kind)), search]

/-- The type of an entry that denotes a column is known. -/
theorem ColumnEntry.Denotes.not_unknown {column : Column} (h : entry.Denotes enums column) :
    ¬entry.Unknown enums := by
  rintro (⟨plain, primitive, precise⟩ | ⟨kind, absent⟩)
  · cases h with
    | primitive _ named => exact primitive _ named
    | precise _ _ spelled scaled => exact precise _ spelled scaled
    | enumeration kind _ _ => exact plain kind
  · cases h with
    | primitive plain _ => exact plain kind
    | precise plain _ _ _ => exact plain kind
    | enumeration _ found _ =>
      rw [found] at absent
      exact absent _ (List.mem_append_right _ List.mem_cons_self) rfl

/-- Exactly the column that an entry denotes is made of it. -/
theorem ColumnEntry.column_eq_ok_iff {column : Column} :
    entry.column enums = .ok column ↔ entry.Denotes enums column := by
  refine ⟨fun made ↦ ?_, Denotes.column_eq⟩
  rcases column_cases enums entry with ⟨other, made', denoted⟩ | ⟨-, e, failed, -⟩
  · obtain rfl := Except.ok.inj (made.symm.trans made')
    exact denoted
  · exact absurd (made.symm.trans failed) nofun

/-- No column is made of an entry exactly if its type is unknown. -/
theorem ColumnEntry.column_error_iff :
    (∃ e, entry.column enums = .error e) ↔ entry.Unknown enums := by
  rcases column_cases enums entry with ⟨column, made, denoted⟩ | ⟨unknown, e, failed, -⟩
  · simp [made, denoted.not_unknown]
  · simp [failed, unknown]

/-- A column is made of an entry in the same way, whatever other enumerations there are than the
first one it names. -/
theorem ColumnEntry.column_congr {others : List EnumEntry}
    (same : entry.NamesEnum →
      others.find? (·.type == entry.type) = enums.find? (·.type == entry.type)) :
    entry.column others = entry.column enums := by
  rw [column, column]
  split
  · rfl
  · next naming => rw [same (not_not.mp (mt isPrimitive_iff.mpr naming))]

/-! ### All columns -/

variable {entries : List ColumnEntry}

/-- Columns are made of entries one after the other. -/
theorem columnsOf_eq_mapM (enums : List EnumEntry) (entries : List ColumnEntry) :
    columnsOf enums entries = entries.mapM (·.column enums) := by
  induction entries with
  | nil => rfl
  | cons entry rest ih => rw [columnsOf, List.mapM_cons, ih]

/-- Exactly the columns that entries denote are made of them. -/
theorem columnsOf_eq_ok_iff {columns : List Column} :
    columnsOf enums entries = .ok columns ↔
      List.Forall₂ (ColumnEntry.Denotes enums) entries columns := by
  rw [columnsOf_eq_mapM, Outcome.mapM_eq_ok]
  simp only [ColumnEntry.column_eq_ok_iff]

/-- If no columns are made of entries, one of the entries fails in this way. -/
private theorem exists_of_columnsOf_error {e : Error} (h : columnsOf enums entries = .error e) :
    ∃ entry ∈ entries, entry.column enums = .error e := by
  induction entries with
  | nil => cases h
  | cons entry rest ih =>
    rw [columnsOf] at h
    cases made : entry.column enums with
    | error e' =>
      rw [made] at h
      obtain rfl := Except.error.inj h
      exact ⟨entry, List.mem_cons_self, made⟩
    | ok column =>
      rw [made, Outcome.ok_bind] at h
      cases others : columnsOf enums rest with
      | ok columns =>
        rw [others] at h
        cases h
      | error e' =>
        rw [others] at h
        obtain rfl := Except.error.inj h
        obtain ⟨other, mem, failed⟩ := ih others
        exact ⟨other, List.mem_cons_of_mem _ mem, failed⟩

/-- No columns are made of entries exactly if the type of some entry is unknown. -/
theorem columnsOf_error_iff :
    (∃ e, columnsOf enums entries = .error e) ↔ ∃ entry ∈ entries, entry.Unknown enums := by
  constructor
  · rintro ⟨e, h⟩
    obtain ⟨entry, mem, failed⟩ := exists_of_columnsOf_error h
    exact ⟨entry, mem, ColumnEntry.column_error_iff.mp ⟨e, failed⟩⟩
  · rintro ⟨entry, mem, unknown⟩
    cases made : columnsOf enums entries with
    | error e => exact ⟨e, rfl⟩
    | ok columns =>
      obtain ⟨column, -, denoted⟩ :=
        Outcome.exists_of_mem_right (columnsOf_eq_ok_iff.mp made).flip mem
      exact absurd unknown (ColumnEntry.Denotes.not_unknown denoted)

/-- Columns that are not made fail for a fault of the document. -/
theorem kind_of_columnsOf {e : Error} (h : columnsOf enums entries = .error e) :
    e.kind = .validation := by
  obtain ⟨entry, -, failed⟩ := exists_of_columnsOf_error h
  rcases ColumnEntry.column_cases enums entry with ⟨column, made, -⟩ | ⟨-, e', failed', kind⟩
  · exact absurd (made.symm.trans failed) nofun
  · obtain rfl := Except.error.inj (failed.symm.trans failed')
    exact kind

/-- Columns are made of entries in the same way, whatever other enumerations there are than the
first one that each of them names. -/
theorem columnsOf_congr {others : List EnumEntry}
    (same : ∀ entry ∈ entries, entry.NamesEnum →
      others.find? (·.type == entry.type) = enums.find? (·.type == entry.type)) :
    columnsOf others entries = columnsOf enums entries := by
  induction entries with
  | nil => rfl
  | cons entry rest ih =>
    rw [List.forall_mem_cons] at same
    rw [columnsOf, columnsOf, ColumnEntry.column_congr same.1, ih same.2]

/-! ### Texts -/

variable {text : String} {document : Document} {columns : List Column}

/-- The documents that are written in a text are those that its value states. -/
theorem writtenIn_iff_of_read {json : Json} (read : Json.ofText? text = some json) :
    document.WrittenIn text ↔ document.StatedBy json := by
  simp only [Document.WrittenIn, read, Option.some.injEq, exists_eq_left']

/-- A text is read as a document exactly if the document is written in it. -/
theorem Document.writtenIn_iff :
    (Json.ofText? text).bind ofJson? = some document ↔ document.WrittenIn text := by
  rw [Option.bind_eq_some_iff, WrittenIn]
  simp only [ofJson?_eq_some_iff]

/-- The columns of a text in which a document is written are made of its entries; other failures
than those hint at the text. -/
theorem columnsOfText_of_writtenIn (h : document.WrittenIn text) :
    columnsOfText text =
      hinting (Cause.reason (.schemaText text)) (columnsOf document.enums document.columns) := by
  rw [columnsOfText, Document.writtenIn_iff.mpr h]

/-- Where a document is written, its columns are read, or not for the same cause as its entries. -/
theorem mapError_columnsOfText (h : document.WrittenIn text) :
    (columnsOfText text).mapError Error.cause =
      (columnsOf document.enums document.columns).mapError Error.cause := by
  rw [columnsOfText_of_writtenIn h]
  cases columnsOf document.enums document.columns <;> rfl

/-- Where a document is written, exactly the columns are read that are made of its entries. -/
theorem columnsOfText_eq_ok_iff_of_writtenIn (h : document.WrittenIn text) :
    columnsOfText text = .ok columns ↔
      List.Forall₂ (ColumnEntry.Denotes document.enums) document.columns columns := by
  rw [← columnsOf_eq_ok_iff, columnsOfText_of_writtenIn h]
  cases columnsOf document.enums document.columns <;> simp [hinting]

/-- A text in which no document is written is refused as such. -/
theorem columnsOfText_of_not_writtenIn (h : ∀ document : Document, ¬document.WrittenIn text) :
    columnsOfText text =
      .error { cause := .schemaText text, hints := ["not a schema document"] } := by
  rw [columnsOfText]
  cases read : (Json.ofText? text).bind Document.ofJson? with
  | none => rfl
  | some document => exact absurd (Document.writtenIn_iff.mp read) (h document)

/-- Columns have the names of the entries that denote them, in order. -/
theorem names_of_denotes (h : List.Forall₂ (ColumnEntry.Denotes enums) entries columns) :
    Column.names columns = entries.map (·.name) := by
  induction h with
  | nil => rfl
  | cons denoted _ ih =>
    rw [Column.names, List.map_cons, List.map_cons, ← ih, Column.names]
    cases denoted <;> rfl

/-- Failures of reading columns are faults of the text. -/
theorem kind_of_columnsOfText {e : Error} (h : columnsOfText text = .error e) :
    e.kind = .validation := by
  by_cases written : ∃ document : Document, document.WrittenIn text
  · obtain ⟨document, written⟩ := written
    rw [columnsOfText_of_writtenIn written] at h
    cases made : columnsOf document.enums document.columns with
    | ok columns =>
      rw [made] at h
      cases h
    | error e' =>
      rw [made] at h
      rw [← Except.error.inj h]
      have kind : e'.kind = .validation := kind_of_columnsOf made
      exact kind
  · rw [columnsOfText_of_not_writtenIn (not_exists.mp written)] at h
    rw [← Except.error.inj h]
    rfl

/-- Texts in which the same documents are written have the same columns, or are refused alike. -/
private theorem mapError_kind_congr {text' : String}
    (same : ∀ document : Document, document.WrittenIn text' ↔ document.WrittenIn text) :
    (columnsOfText text').mapError Error.kind = (columnsOfText text).mapError Error.kind := by
  have read : (Json.ofText? text').bind Document.ofJson? =
      (Json.ofText? text).bind Document.ofJson? := by
    apply Option.ext
    intro document
    rw [Document.writtenIn_iff, Document.writtenIn_iff, same]
  rw [columnsOfText, columnsOfText, read]
  cases (Json.ofText? text).bind Document.ofJson? with
  | none => rfl
  | some document =>
    dsimp only
    cases columnsOf document.enums document.columns <;> rfl

/-- The columns of a text are read exactly if a document is written in it and each of its entries
denotes a column; these are the columns, in order and with the names of the entries. What is
refused is a fault of the text: either no document is written in it, or the type of some column of
the document is unknown. Other enumerations than the first one with the type of a column do not
matter to the result, nor to the cause of a failure. Whether a list with one entry is written as
the entry neither matters to the document nor to the result, nor to the kind of a failure. -/
theorem columnsOfText_documents (text : String) :
    (∀ columns, columnsOfText text = .ok columns ↔
      ∃ document : Document, document.WrittenIn text ∧
        List.Forall₂ (ColumnEntry.Denotes document.enums) document.columns columns) ∧
    (∀ (document : Document) columns, document.WrittenIn text → columnsOfText text = .ok columns →
      Column.names columns = document.columns.map (·.name)) ∧
    (∀ document : Document, document.WrittenIn text →
      ((∃ e, columnsOfText text = .error e) ↔
        ∃ entry ∈ document.columns, entry.Unknown document.enums)) ∧
    (∀ e, columnsOfText text = .error e → e.kind = .validation) ∧
    (∀ (document other : Document) (text' : String),
      document.WrittenIn text → other.WrittenIn text' → other.columns = document.columns →
      (∀ entry ∈ document.columns, entry.NamesEnum →
        other.enums.find? (·.type == entry.type) = document.enums.find? (·.type == entry.type)) →
      (columnsOfText text').mapError Error.cause = (columnsOfText text).mapError Error.cause) ∧
    ∀ (json json' : Json) (text' : String),
      Json.ofText? text = some json → Json.ofText? text' = some json' →
      Relation.ReflTransGen Unlisted json json' →
      (∀ document : Document, document.WrittenIn text' ↔ document.WrittenIn text) ∧
        (columnsOfText text').mapError Error.kind = (columnsOfText text).mapError Error.kind := by
  refine ⟨fun columns ↦ ⟨fun read ↦ ?_, ?_⟩, ?_, ?_, fun e ↦ kind_of_columnsOfText, ?_, ?_⟩
  · by_cases written : ∃ document : Document, document.WrittenIn text
    · obtain ⟨document, written⟩ := written
      exact ⟨document, written, (columnsOfText_eq_ok_iff_of_writtenIn written).mp read⟩
    · rw [columnsOfText_of_not_writtenIn (not_exists.mp written)] at read
      cases read
  · rintro ⟨document, written, denoted⟩
    exact (columnsOfText_eq_ok_iff_of_writtenIn written).mpr denoted
  · intro document columns written read
    exact names_of_denotes ((columnsOfText_eq_ok_iff_of_writtenIn written).mp read)
  · intro document written
    rw [← columnsOf_error_iff, columnsOfText_of_writtenIn written]
    cases columnsOf document.enums document.columns <;> simp [hinting]
  · intro document other text' written written' columns same
    rw [mapError_columnsOfText written, mapError_columnsOfText written', columns,
      columnsOf_congr same]
  · intro json json' text' read read' unlisted
    have same (document : Document) : document.WrittenIn text' ↔ document.WrittenIn text := by
      rw [writtenIn_iff_of_read read, writtenIn_iff_of_read read']
      exact Document.statedBy_iff_of_all_unlisted unlisted document
    exact ⟨same, mapError_kind_congr same⟩

/-- A schema document of two columns, of which one is of an enumeration. -/
private def tradesText : String :=
  "\x7b\"columns\":[[null,\"id\",\"Int\"],[\"enum\",\"side\",\"Side\"]]," ++
    "\"enums\":[[\"Side\",[\"BUY\"]]]\x7d"

/-- This document with two lists of one entry written as the entry. -/
private def bareTradesText : String :=
  "\x7b\"columns\":[[null,\"id\",\"Int\"],[\"enum\",\"side\",\"Side\"]]," ++
    "\"enums\":[\"Side\",\"BUY\"]\x7d"

/-- This document with another enumeration, and members in another order. -/
private def otherTradesText : String :=
  "\x7b\"enums\":[[\"T\",[]],[\"Side\",\"BUY\"]]," ++
    "\"columns\":[[null,\"id\",\"Int\"],[\"enum\",\"side\",\"Side\"]]\x7d"

/-- The values of the first two documents. -/
private def tradesJson (enums : Json) : Json :=
  .object [("columns", .array [.array [.null, .string "id", .string "Int"],
    .array [.string "enum", .string "side", .string "Side"]]), ("enums", enums)]

/-- What these documents describe. -/
private def tradesDocument (others : List EnumEntry) : Document where
  columns := [⟨none, "id", "Int"⟩, ⟨some "enum", "side", "Side"⟩]
  enums := others ++ [⟨"Side", ["BUY"]⟩]

/-- The columns of a document do not change when an enumeration that no column names is added, or
lists with one entry are written as the entry. Without the enumeration the document is refused. -/
theorem columnsOfText_documents_of_trades :
    columnsOfText tradesText =
      .ok [.precise "id" .int, .ofEnum "side" ⟨"Side", ["BUY"]⟩] ∧
    Column.names [.precise "id" .int, .ofEnum "side" ⟨"Side", ["BUY"]⟩] =
      (tradesDocument []).columns.map (·.name) ∧
    (columnsOfText otherTradesText).mapError Error.cause =
      (columnsOfText tradesText).mapError Error.cause ∧
    ((tradesDocument []).WrittenIn bareTradesText ↔ (tradesDocument []).WrittenIn tradesText) ∧
    (columnsOfText bareTradesText).mapError Error.kind =
      (columnsOfText tradesText).mapError Error.kind ∧
    ∃ e, columnsOfText "[[\"enum\",\"side\",\"Side\"]]" = .error e ∧ e.kind = .validation := by
  obtain ⟨accepted, named, -, -, others, unlisted⟩ := columnsOfText_documents tradesText
  have read : Json.ofText? tradesText =
      some (tradesJson (.array [.array [.string "Side", .array [.string "BUY"]]])) := by cbv
  have bare : Json.ofText? bareTradesText =
      some (tradesJson (.array [.string "Side", .string "BUY"])) := by cbv
  have stated : (tradesDocument []).StatedBy
      (tradesJson (.array [.array [.string "Side", .array [.string "BUY"]]])) :=
    (Document.ofJson?_eq_some_iff _ _).mp (by decide +kernel)
  have written : (tradesDocument []).WrittenIn tradesText := ⟨_, read, stated⟩
  have other : (tradesDocument [⟨"T", []⟩]).WrittenIn otherTradesText :=
    Document.writtenIn_iff.mp (by decide +kernel)
  have id : ColumnEntry.Denotes (tradesDocument []).enums ⟨none, "id", "Int"⟩
      (.precise "id" .int) :=
    .precise (by simp [ColumnEntry.NamesEnum]) (fun type ↦ by cases type <;> decide)
      (.bare rfl (.refl _)) trivial
  have side : ColumnEntry.Denotes (tradesDocument []).enums ⟨some "enum", "side", "Side"⟩
      (.ofEnum "side" ⟨"Side", ["BUY"]⟩) :=
    .enumeration ⟨"enum", rfl, by decide⟩ rfl (List.forall_mem_nil _)
  have columns := (accepted _).mpr ⟨tradesDocument [], written, .cons id (.cons side .nil)⟩
  have sides {value : Json} (read : listed EnumEntry.ofJson? value = some [⟨"Side", ["BUY"]⟩]) :
      ∃ entries, Listed EnumEntry.StatedBy entries value :=
    ⟨_, (listed_eq_some_iff EnumEntry.ofJson?_eq_some_iff EnumEntry.apart).mp read⟩
  have values : Unlisted (tradesJson (.array [.array [.string "Side", .array [.string "BUY"]]]))
      (tradesJson (.array [.array [.string "Side", .string "BUY"]])) :=
    .values (@FieldReplaced.object _ _ _ [("columns", _)] [] _ _ ⟨sides (by decide +kernel),
      @EntryReplaced.many _ [] [] _ _
        (@FieldReplaced.array _ _ _ ["type"] [] [.string "Side"] [] _ _ rfl rfl (.intro _))⟩)
  have enums : Unlisted (tradesJson (.array [.array [.string "Side", .string "BUY"]]))
      (tradesJson (.array [.string "Side", .string "BUY"])) :=
    .enums (@FieldReplaced.object _ _ _ [("columns", _)] [] _ _
      ⟨sides (by decide +kernel), .intro _⟩)
  obtain ⟨same, alike⟩ := unlisted _ _ bareTradesText read bare (.tail (.single values) enums)
  refine ⟨columns, named _ _ written columns, ?_, same _, alike, ?_⟩
  · apply others _ _ _ written other rfl
    intro entry mem _
    rcases List.mem_pair.mp mem with rfl | rfl <;> rfl
  · obtain ⟨-, -, refused, faults, -⟩ :=
      columnsOfText_documents "[[\"enum\",\"side\",\"Side\"]]"
    have incomplete : Document.WrittenIn ⟨[⟨some "enum", "side", "Side"⟩], []⟩
        "[[\"enum\",\"side\",\"Side\"]]" := Document.writtenIn_iff.mp (by decide +kernel)
    obtain ⟨e, failed⟩ := (refused _ incomplete).mpr
      ⟨_, List.mem_cons_self, .inr ⟨⟨"enum", rfl, by decide⟩, List.forall_mem_nil _⟩⟩
    exact ⟨e, failed, faults e failed⟩

end FrameQuery.Schema
