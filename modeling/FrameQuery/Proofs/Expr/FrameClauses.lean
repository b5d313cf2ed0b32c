import FrameQuery.Proofs.Expr.Terms
import FrameQuery.Proofs.Expr.WindowFrames
import FrameQuery.Proofs.Number.Reading
import FrameQuery.Proofs.Text.Tokens
import FrameQuery.Proofs.Text.Unquoting
import FrameQuery.Sql.Rendering

/-!
# Window frames read back

SQL spells a frame out with a word for each side and a count, or an interval, without a sign; PURE
has a function of signed numbers, each with its unit behind it. Both texts are read back as what the
frame extends over. Only the row itself loses the unit of its distance, and only in SQL.
-/

namespace FrameQuery

open Sql (Dialect DurationUnit WindowFrameMode)
open PureText (Term numberTerm readBack Shows Ends Lists)

/-! ### Reading SQL -/

/-- The mode with a keyword, if there is one. -/
def Sql.WindowFrameMode.ofKeyword? (s : String) : Option WindowFrameMode :=
  (Named.values : List WindowFrameMode).find? fun mode ↦ mode.keyword == s

namespace FrameEdge

/-- A count and its unit. -/
def ofSpan? : List Token → Option (Nat × DurationUnit)
  | [.word count, .word unit] => do
    let n ← Reading.natural count.toList
    let unit ← DurationUnit.ofKeyword? unit
    return (n, unit)
  | _ => none

/-- A count and its unit, between quotes or not. -/
def ofInterval? : List Token → Option (Nat × DurationUnit)
  | [.word quoted] =>
    match Quoted.readDoubled '\'' quoted.toList with
    | some (span, []) => ofSpan? (tokens (String.ofList span))
    | _ => none
  | span => ofSpan? span

/-- A count, or an interval. -/
def ofDistance? : List Token → Option (Nat × Option DurationUnit)
  | [.word count] => (Reading.natural count.toList).map fun n ↦ (n, none)
  | .word "INTERVAL" :: interval => (ofInterval? interval).map fun (n, unit) ↦ (n, some unit)
  | _ => none

/-- How far a written bound reaches. -/
def ofTokens? (ts : List Token) : Option FrameEdge :=
  match ofDistance? ts.dropLast, ts.getLast? with
  | some (n, unit), some (.word "PRECEDING") => some (.distance (-n) unit)
  | some (n, unit), some (.word "FOLLOWING") => some (.distance n unit)
  | _, _ =>
    if ts = [.word "UNBOUNDED", .word "PRECEDING"] then some .first
    else if ts = [.word "CURRENT", .word "ROW"] then some (.distance 0 none)
    else if ts = [.word "UNBOUNDED", .word "FOLLOWING"] then some .last
    else none

end FrameEdge

/-- What a frame clause extends over. Without a second bound it ends with the row. -/
def FrameExtent.ofTokens? : List Token → Option FrameExtent
  | .word mode :: .word "BETWEEN" :: bounds => do
    let mode ← WindowFrameMode.ofKeyword? mode
    let start ← FrameEdge.ofTokens? (bounds.takeWhile (· ≠ .word "AND"))
    let stop ← FrameEdge.ofTokens? (bounds.dropWhile (· ≠ .word "AND")).tail
    return ⟨mode, start, stop⟩
  | .word mode :: start => do
    let mode ← WindowFrameMode.ofKeyword? mode
    let start ← FrameEdge.ofTokens? start
    return ⟨mode, start, .distance 0 none⟩
  | _ => none

/-- What an SQL frame clause extends over. -/
def FrameExtent.ofSql? (text : String) : Option FrameExtent := ofTokens? (tokens text)

/-! ### Reading PURE -/

namespace PureText.Term

/-- The integer that a term is. -/
def integer? : Term → Option Int
  | .word digits => (Reading.natural digits.toList).map fun n : Nat ↦ (n : Int)
  | .negative (.word digits) => (Reading.natural digits.toList).map fun n : Nat ↦ -(n : Int)
  | _ => none

/-- The unit of time at the front of some terms, if there is one, and the terms behind it. -/
def takeUnit : List Term → Option DurationUnit × List Term
  | .member (.word "DurationUnit") name :: rest =>
    ((Named.values : List DurationUnit).find? fun unit ↦ unit.keyword ++ "S" == name, rest)
  | rest => (none, rest)

/-- How far the first bound among some terms reaches, and the terms behind it. -/
def takeEdge (isStart : Bool) : List Term → Option (FrameEdge × List Term)
  | [] => none
  | .call "unbounded" [] :: rest => some (if isStart then .first else .last, rest)
  | value :: rest => do
    let n ← value.integer?
    let (unit, rest) := takeUnit rest
    return (.distance n unit, rest)

/-- The mode of a frame with a function, if there is one. -/
def frameMode? (function : String) : Option WindowFrameMode :=
  if function = "rows" then some .rows else if function = "_range" then some .range else none

/-- What a frame extends over. -/
def extent? : Term → Option FrameExtent
  | .call function bounds => do
    let mode ← frameMode? function
    let (start, rest) ← takeEdge true bounds
    let (stop, rest) ← takeEdge false rest
    if rest.isEmpty then return ⟨mode, start, stop⟩ else none
  | _ => none

end PureText.Term

/-- What a PURE frame extends over. -/
def FrameExtent.ofPure? (text : String) : Option FrameExtent :=
  (PureText.readBack text).bind (·.extent?)

/-! ### Bounds in range -/

namespace Bound

/-- A distance strictly between -2^63 and 2^63. -/
def InRange : Bound → Prop
  | .unbounded => True
  | .offset value _ =>
    -9223372036854775808 < value.toInt ∧ value.toInt < 9223372036854775808

/-- How far a bound reaches, with the unit of every distance. -/
def given (bound : Bound) (isStart : Bool) : FrameEdge :=
  match bound with
  | .unbounded => if isStart then .first else .last
  | .offset value unit => .distance value.toInt unit

/-- Two bounds that differ at most in the unit of a distance that is zero. -/
def Agrees (bound other : Bound) : Prop :=
  bound = other ∨ ∃ unit unit', bound = .offset 0 unit ∧ other = .offset 0 unit'

end Bound

/-- What a frame extends over, with the unit of every distance. -/
def FrameSpec.given (frame : FrameSpec) : FrameExtent :=
  ⟨frame.mode, frame.start.given true, frame.stop.given false⟩

/-- A reach without a unit where it is the row itself. -/
def FrameEdge.unitless : FrameEdge → FrameEdge
  | .distance value unit => .distance value (if value = 0 then none else unit)
  | edge => edge

namespace Bound

/-- Only the unit of the row itself is left out of account. -/
theorem unitless_given (bound : Bound) (isStart : Bool) :
    (bound.given isStart).unitless = bound.edge isStart := by
  cases bound with
  | unbounded => cases isStart <;> rfl
  | offset value unit =>
    have zero : value.toInt = 0 ↔ value = 0 := Int64.toInt_inj (y := 0)
    simp only [given, edge, FrameEdge.unitless, zero]

/-- Exactly the distances in range have an opposite. -/
theorem inRange_iff {bound : Bound} : bound.InRange ↔ bound.HasOpposite := by
  cases bound with
  | unbounded => exact Iff.rfl
  | offset value unit =>
    have least : value = Int64.minValue ↔ value.toInt = -2 ^ 63 :=
      (Int64.toInt_inj (y := Int64.minValue)).symm
    have low := value.le_toInt
    have high := value.toInt_lt
    rw [InRange, HasOpposite, ne_eq, least]
    omega

/-- Bounds that reach as far differ at most in the unit of the row itself. -/
theorem agrees_of_edge {bound other : Bound} {isStart : Bool}
    (same : bound.edge isStart = other.edge isStart) : bound.Agrees other := by
  cases bound with
  | unbounded =>
    cases other with
    | unbounded => exact .inl rfl
    | offset value unit => cases isStart <;> cases same
  | offset value unit =>
    cases other with
    | unbounded => cases isStart <;> cases same
    | offset value' unit' =>
      obtain ⟨number, units⟩ := FrameEdge.distance.inj same
      have value := Int64.toInt_inj.mp number
      subst value
      by_cases zero : value = 0
      · exact .inr ⟨unit, unit', by rw [zero], by rw [zero]⟩
      · rw [if_neg zero, if_neg zero] at units
        exact .inl (by rw [units])

end Bound

/-! ### Numbers -/

/-- An integer that is not negative is written as the digits of its value. -/
private theorem Int.toList_toString {n : Int} (h : 0 ≤ n) :
    (toString n).toList = Nat.toDigits 10 n.toNat := by
  rw [Int.toString_eq_repr, Int.repr_eq_if, if_pos h, Nat.toList_repr]

/-- A negative integer is written as the digits of its opposite, behind a minus. -/
private theorem Int.toList_toString_of_neg {n : Int} (h : n < 0) :
    (toString n).toList = '-' :: Nat.toDigits 10 (-n).toNat := by
  rw [Int.toString_eq_repr, Int.repr_eq_if, if_neg (Int.not_le.mpr h), String.toList_append,
    Nat.toList_repr]
  rfl

/-- The digits of a number are read as the number. -/
private theorem natural_toDigits (n : Nat) : Reading.natural (Nat.toDigits 10 n) = some n :=
  Reading.natural_eq_some_iff.mpr (.toDigits n)

/-- The digits of a number are a word. -/
private theorem isWord_toDigits (n : Nat) : IsWord (Nat.toDigits 10 n) :=
  (Magnitude.positional (.toDigits n)).isWord

/-! ### Frame clauses -/

section Clauses

variable {layout : Layout} {doc : Doc} {ts : List Token}

/-- A document with a word behind it. -/
private theorem spells_behind (h : Doc.Spells layout doc ts) {word : String} {text : Doc}
    (hw : IsWord word.toList) (parts : text = Doc.text " " ++ Doc.text word) :
    Doc.Spells layout (doc ++ text) (ts ++ [.word word]) := by
  rw [parts, ← List.append_assoc]
  exact h.blank.before (.word hw)

/-- Keywords are words. -/
private theorem isWord_keyword {word : String}
    (h : !word.toList.isEmpty && word.toList.all Lexer.isPlain) : IsWord word.toList := by
  simp only [Bool.and_eq_true, Bool.not_eq_true', List.isEmpty_eq_false_iff] at h
  exact .of_plain h.1 (List.all_eq_true.mp h.2)

/-- A document that is read as a distance; it has no conjunction in it. -/
def Measures (layout : Layout) (doc : Doc) (n : Nat) (unit : Option DurationUnit) : Prop :=
  ∃ ts, Doc.Spells layout doc ts ∧ FrameEdge.ofDistance? ts = some (n, unit) ∧
    Token.word "AND" ∉ ts

/-- Digits are no conjunction. -/
private theorem toString_ne_and {n : Int} (h : 0 ≤ n) : toString n ≠ "AND" := by
  intro same
  have read := natural_toDigits n.toNat
  rw [← Int.toList_toString h, same] at read
  cases read

/-- A span of time between quotes is read as what is read between them. -/
private theorem measures_quoted {span : String} {n : Nat} {unit : DurationUnit}
    (unquoted : '\'' ∉ span.toList) (read : FrameEdge.ofSpan? (tokens span) = some (n, unit)) :
    Measures layout (Doc.text "INTERVAL '" ++ Doc.text span ++ Doc.text "'") n (some unit) := by
  have interval : Doc.Delimits layout (Doc.text "INTERVAL ") [.word "INTERVAL"] :=
    .of_text _ _ fun _ ↦ rfl
  have isWord : IsWord (Quoted.doubled '\'' span).toList := .doubled rfl span
  have same : Doc.text "INTERVAL '" ++ Doc.text span ++ Doc.text "'" =
      Doc.text "INTERVAL " ++ Doc.text (Quoted.doubled '\'' span) := by
    have opening : Doc.text "INTERVAL '" = Doc.text "INTERVAL " ++ Doc.text "'" := rfl
    have quoted : Doc.text (Quoted.doubled '\'' span) =
        Doc.text "'" ++ (Doc.text span ++ Doc.text "'") := by
      rw [Doc.text, Quoted.doubled, String.toList_ofList, Quoted.double_of_not_mem unquoted]
      simp [Doc.text]
    rw [opening, quoted, List.append_assoc, List.append_assoc]
  have content : Quoted.readDoubled '\'' (Quoted.doubled '\'' span).toList =
      some (span.toList, []) := by
    rw [← List.append_nil (Quoted.doubled '\'' span).toList, Quoted.readDoubled_append_iff]
    exact (Option.some_ne_none _).symm
  rw [same]
  refine ⟨_, interval.before (.word isWord), ?_, ?_⟩
  · change (FrameEdge.ofInterval? [.word (Quoted.doubled '\'' span)]).map _ = _
    rw [FrameEdge.ofInterval?, content]
    change (FrameEdge.ofSpan? (tokens (String.ofList span.toList))).map _ = _
    rw [String.ofList_toList, read]
    rfl
  · have quoted : "AND" ≠ Quoted.doubled '\'' span := by
      intro same
      have head : "AND".toList.head? = some '\'' := by
        rw [same, Quoted.doubled, String.toList_ofList]
        rfl
      exact absurd head (by decide)
    simp only [List.singleton_append, List.mem_cons, Token.word.injEq, List.not_mem_nil, or_false,
      not_or]
    exact ⟨by decide, quoted⟩

variable {amount : Int64} (counted : 0 ≤ amount.toInt)

include counted

/-- A count is a word. -/
private theorem spells_intDoc :
    Doc.Spells layout (Sql.intDoc amount) [.word (toString amount.toInt)] := by
  apply Doc.Spells.word
  rw [Int.toList_toString counted]
  exact isWord_toDigits _

/-- A count is read as a count. -/
private theorem natural_count :
    Reading.natural (toString amount.toInt).toList = some amount.toInt.toNat := by
  rw [Int.toList_toString counted, natural_toDigits]

/-- A count is read as a distance. -/
private theorem measures_count : Measures layout (Sql.intDoc amount) amount.toInt.toNat none := by
  refine ⟨_, spells_intDoc counted, ?_, ?_⟩
  · rw [FrameEdge.ofDistance?, natural_count counted]
    rfl
  · rw [List.mem_singleton, Token.word.injEq]
    exact (toString_ne_and counted).symm

/-- A span of time is a count and a unit. -/
private theorem spells_span (unit : DurationUnit) :
    Doc.Spells layout (Sql.intDoc amount ++ Doc.text " " ++ Doc.text unit.keyword)
      [.word (toString amount.toInt), .word unit.keyword] := by
  have word : IsWord unit.keyword.toList := by cases unit <;> exact isWord_keyword rfl
  exact (spells_intDoc counted).blank.before (.word word)

/-- A span of time is read as one. -/
private theorem ofSpan?_span (unit : DurationUnit) :
    FrameEdge.ofSpan? [.word (toString amount.toInt), .word unit.keyword] =
      some (amount.toInt.toNat, unit) := by
  have known : DurationUnit.ofKeyword? unit.keyword = some unit := by cases unit <;> rfl
  rw [FrameEdge.ofSpan?, natural_count counted, known]
  rfl

/-- A span of time has no quotes in it. -/
private theorem unquoted_span (unit : DurationUnit) :
    '\'' ∉ (toString amount.toInt ++ " " ++ unit.keyword).toList := by
  have word : '\'' ∉ unit.keyword.toList := by cases unit <;> decide
  have digits : '\'' ∉ (toString amount.toInt).toList := by
    rw [Int.toList_toString counted]
    intro quote
    have digit := (Reading.Digits.toDigits _).all _ quote
    cases digit
  rw [String.toList_append, String.toList_append, List.mem_append, List.mem_append]
  exact not_or.mpr ⟨not_or.mpr ⟨digits, by decide⟩, word⟩

/-- An interval is read as a distance, between quotes or not. -/
private theorem measures_interval (d : Dialect) (unit : DurationUnit) :
    Measures layout (d.intervalDoc ⟨amount, unit⟩) amount.toInt.toNat (some unit) := by
  have span := ofSpan?_span counted unit
  have spelled : Doc.Spells layout _ _ := spells_span counted unit
  rw [Dialect.intervalDoc]
  split
  · have text : Sql.intDoc amount ++ Doc.text " " ++ Doc.text unit.keyword =
        Doc.text (toString amount.toInt ++ " " ++ unit.keyword) := by
      rw [Doc.text_append, Doc.text_append]
      rfl
    rw [text]
    apply measures_quoted (unquoted_span counted unit)
    rw [text, Doc.Spells, Layout.chars_text] at spelled
    rw [spelled.tokens, span]
  · have interval : Doc.Delimits layout (Doc.text "INTERVAL ") [.word "INTERVAL"] :=
      .of_text _ _ fun _ ↦ rfl
    refine ⟨_, interval.before spelled, ?_, ?_⟩
    · have direct : FrameEdge.ofInterval? [.word (toString amount.toInt), .word unit.keyword] =
          FrameEdge.ofSpan? [.word (toString amount.toInt), .word unit.keyword] := rfl
      change (FrameEdge.ofInterval? [_, _]).map _ = _
      rw [direct, span]
      rfl
    · have word : "AND" ≠ unit.keyword := by cases unit <;> decide
      simp only [List.singleton_append, List.mem_cons, Token.word.injEq, List.not_mem_nil, or_false,
        not_or]
      exact ⟨by decide, (toString_ne_and counted).symm, word⟩

omit counted

/-- A document that is read as how far a bound reaches; it has no conjunction in it. -/
def Reaches (layout : Layout) (doc : Doc) (edge : FrameEdge) : Prop :=
  ∃ ts, Doc.Spells layout doc ts ∧ FrameEdge.ofTokens? ts = some edge ∧ Token.word "AND" ∉ ts

/-- A word behind a document without a conjunction is none. -/
private theorem and_notMem_behind (apart : Token.word "AND" ∉ ts) {word : String}
    (hw : "AND" ≠ word) : Token.word "AND" ∉ ts ++ [.word word] := by
  rw [List.mem_append, List.mem_singleton, Token.word.injEq]
  exact not_or.mpr ⟨apart, hw⟩

/-- A distance before the row. -/
private theorem Measures.preceding {n : Nat} {unit : Option DurationUnit}
    (h : Measures layout doc n unit) :
    Reaches layout (doc ++ Doc.text " PRECEDING") (.distance (-n) unit) := by
  obtain ⟨ts, spelled, read, apart⟩ := h
  have word : IsWord "PRECEDING".toList := isWord_keyword rfl
  refine ⟨_, spells_behind spelled word rfl, ?_, and_notMem_behind apart (by decide)⟩
  rw [FrameEdge.ofTokens?, List.dropLast_concat, List.getLast?_concat, read]
  rfl

/-- A distance behind the row. -/
private theorem Measures.following {n : Nat} {unit : Option DurationUnit}
    (h : Measures layout doc n unit) :
    Reaches layout (doc ++ Doc.text " FOLLOWING") (.distance n unit) := by
  obtain ⟨ts, spelled, read, apart⟩ := h
  have word : IsWord "FOLLOWING".toList := isWord_keyword rfl
  refine ⟨_, spells_behind spelled word rfl, ?_, and_notMem_behind apart (by decide)⟩
  rw [FrameEdge.ofTokens?, List.dropLast_concat, List.getLast?_concat, read]
  rfl

/-- A reach in keywords. -/
private theorem reaches_keywords {first second : String} {text : Doc} {edge : FrameEdge}
    (hf : IsWord first.toList) (hs : IsWord second.toList)
    (parts : text = Doc.text first ++ (Doc.text " " ++ Doc.text second))
    (read : FrameEdge.ofTokens? [.word first, .word second] = some edge)
    (apart : "AND" ≠ first ∧ "AND" ≠ second) : Reaches layout text edge := by
  have spelled : Doc.Spells layout (Doc.text first) [.word first] := .word hf
  rw [parts]
  refine ⟨_, spells_behind spelled hs rfl, read, and_notMem_behind ?_ apart.2⟩
  rw [List.mem_singleton, Token.word.injEq]
  exact apart.1

variable (layout)

/-- Reaches without a distance. -/
private theorem reaches_fixed : Reaches layout (Doc.text "UNBOUNDED PRECEDING") .first ∧
    Reaches layout (Doc.text "CURRENT ROW") (.distance 0 none) ∧
    Reaches layout (Doc.text "UNBOUNDED FOLLOWING") .last := by
  have unbounded : IsWord "UNBOUNDED".toList := isWord_keyword rfl
  have preceding : IsWord "PRECEDING".toList := isWord_keyword rfl
  have current : IsWord "CURRENT".toList := isWord_keyword rfl
  have row : IsWord "ROW".toList := isWord_keyword rfl
  have following : IsWord "FOLLOWING".toList := isWord_keyword rfl
  exact ⟨reaches_keywords unbounded preceding rfl rfl (by decide),
    reaches_keywords current row rfl rfl (by decide),
    reaches_keywords unbounded following rfl rfl (by decide)⟩

/-- A written distance in front of its direction: a count, or an interval. -/
private theorem exists_distance (d : Dialect) (depth : Nat) {amount : Int64}
    (counted : 0 ≤ amount.toInt) (unit : Option DurationUnit) :
    ∃ doc, Measures layout doc amount.toInt.toNat unit ∧
      (⟨.preceding, some (.integer amount), unit⟩ : Sql.FrameBound).doc d depth =
        .ok (doc ++ Doc.text " PRECEDING") ∧
      (⟨.following, some (.integer amount), unit⟩ : Sql.FrameBound).doc d depth =
        .ok (doc ++ Doc.text " FOLLOWING") := by
  cases unit with
  | none => exact ⟨_, measures_count counted, rfl, rfl⟩
  | some unit => exact ⟨_, measures_interval counted d unit, rfl, rfl⟩

/-- A written bound in range is read as the bound. -/
theorem Bound.exists_doc (d : Dialect) (depth : Nat) {bound : Bound}
    (inRange : bound.InRange) (isStart : Bool) :
    ∃ doc, (bound.toSql isStart).doc d depth = .ok doc ∧
      Reaches layout doc (bound.edge isStart) := by
  obtain ⟨first, row, last⟩ := reaches_fixed layout
  cases bound with
  | unbounded =>
    cases isStart with
    | true => exact ⟨_, rfl, first⟩
    | false => exact ⟨_, rfl, last⟩
  | offset value unit =>
    by_cases zero : value = 0
    · rw [toSql, if_pos zero, edge, if_pos zero, zero]
      exact ⟨_, rfl, row⟩
    · have opposite : value ≠ Int64.minValue := inRange_iff.mp inRange
      have magnitude : value.abs.toInt = if value < 0 then -value.toInt else value.toInt := by
        rw [toInt_abs, if_neg opposite]
      have sign : value < 0 ↔ value.toInt < 0 := Int64.lt_iff_toInt_lt
      have counted : 0 ≤ value.abs.toInt := by
        rw [magnitude]
        by_cases negative : value < 0
        · rw [if_pos negative]
          have below := sign.mp negative
          omega
        · rw [if_neg negative]
          exact Int.not_lt.mp (negative ∘ sign.mpr)
      obtain ⟨doc, measures, before, behind⟩ := exists_distance layout d depth counted unit
      rw [toSql, if_neg zero, edge, if_neg zero]
      by_cases negative : value < 0
      · rw [if_pos negative] at magnitude
        have distance : -(value.abs.toInt.toNat : Int) = value.toInt := by omega
        rw [if_pos negative, ← distance]
        exact ⟨_, before, measures.preceding⟩
      · rw [if_neg negative] at magnitude
        have distance : (value.abs.toInt.toNat : Int) = value.toInt := by omega
        rw [if_neg negative, ← distance]
        exact ⟨_, behind, measures.following⟩

/-- A frame clause is its mode and both bounds, with keywords between them. -/
private theorem WindowFrame.doc_eq_ok {d : Dialect} {depth : Nat} {mode : WindowFrameMode}
    {start stop : Sql.FrameBound} {first last : Doc} (hs : start.doc d depth = .ok first)
    (he : stop.doc d depth = .ok last) :
    (⟨mode, start, some stop⟩ : Sql.WindowFrame).doc d depth =
      .ok (Doc.text mode.keyword ++ Doc.text " BETWEEN " ++ first ++ Doc.text " AND " ++ last) := by
  rw [Sql.WindowFrame.doc, hs, Sql.FrameBound.optionDoc, he]
  rfl

/-- A written frame with bounds in range is read as what the frame extends over. -/
theorem FrameSpec.exists_doc (d : Dialect) (depth : Nat) {frame : FrameSpec}
    (hs : frame.start.InRange) (he : frame.stop.InRange) :
    ∃ doc, frame.toSql.doc d depth = .ok doc ∧
      FrameExtent.ofSql? (layout.render doc) = some frame.extent := by
  obtain ⟨first, hs, ts, spelled, readStart, apart⟩ := Bound.exists_doc layout d depth hs true
  obtain ⟨last, he, us, spelled', readStop, -⟩ := Bound.exists_doc layout d depth he false
  have word : IsWord frame.mode.keyword.toList := by
    cases frame.mode <;> exact isWord_keyword rfl
  have mode : WindowFrameMode.ofKeyword? frame.mode.keyword = some frame.mode := by
    cases frame.mode <;> rfl
  have opening : Doc.Delimits layout (Doc.text frame.mode.keyword ++ Doc.text " BETWEEN ")
      ([.word frame.mode.keyword] ++ [.word "BETWEEN"]) :=
    (Doc.Spells.word word).before _ _ rfl fun _ ↦ rfl
  have whole := (((opening.before spelled).before " AND " [.word "AND"] rfl fun _ ↦ rfl).before
    spelled')
  refine ⟨_, WindowFrame.doc_eq_ok hs he, ?_⟩
  rw [Doc.Spells] at whole
  rw [FrameExtent.ofSql?, Layout.render, Spells.tokens (by rwa [String.toList_ofList])]
  simp only [List.append_assoc, List.cons_append, List.nil_append]
  -- No bound has a conjunction in it, so that the first one is the one between the bounds.
  have inStart : ∀ t ∈ ts, decide (t ≠ .word "AND") = true := by
    intro t ht
    rw [decide_eq_true_eq]
    rintro rfl
    exact apart ht
  have front : (ts ++ .word "AND" :: us).takeWhile (· ≠ .word "AND") = ts := by
    rw [List.takeWhile_append_of_pos inStart]
    exact List.append_nil ts
  have back : ((ts ++ .word "AND" :: us).dropWhile (· ≠ .word "AND")).tail = us := by
    rw [List.dropWhile_append_of_pos inStart]
    rfl
  rw [FrameExtent.ofTokens?, mode, front, back, readStart, readStop]
  rfl

end Clauses

/-! ### PURE frames -/

namespace Bound

/-- The documents of a bound, each an argument of its own. -/
def docs : Bound → List Doc
  | .unbounded => ["unbounded()"]
  | .offset value none => [PureText.intText value]
  | .offset value (some unit) => [PureText.intText value, PureText.unitText unit]

/-- The terms of a bound. -/
def terms : Bound → List Term
  | .unbounded => [.call "unbounded" []]
  | .offset value none => [numberTerm (PureText.intText value)]
  | .offset value (some unit) => [numberTerm (PureText.intText value), unitTerm unit]

/-- The documents of a bound are read as its terms. -/
private theorem lists_docs (layout : Layout) (bound : Bound) :
    List.Forall₂ (Lists layout) bound.docs bound.terms := by
  have number (value : Int64) : Lists layout (Doc.text (PureText.intText value))
      (numberTerm (PureText.intText value)) := (Shows.intText value).fills.lists
  cases bound with
  | unbounded =>
    have call : Ends layout (PureText.call "unbounded" []) (.call "unbounded" []) :=
      .call (.of_isName rfl) .nil
    exact .cons call.shows.fills.lists .nil
  | offset value unit =>
    cases unit with
    | none => exact .cons (number value) .nil
    | some unit => exact .cons (number value) (.cons (shows_unit unit).fills.lists .nil)

end Bound

/-- The documents of a bound with commas between them. -/
private theorem commaSep_docs (bound : Bound) : Doc.commaSep bound.docs = bound.toPure := by
  cases bound with
  | unbounded => exact Doc.commaSep_singleton _
  | offset value unit =>
    cases unit with
    | none => exact Doc.commaSep_singleton _
    | some unit =>
      rw [Bound.docs, Doc.commaSep_cons_cons, Doc.commaSep_singleton]
      rfl

/-- The documents of two bounds with commas between them. -/
private theorem commaSep_bounds (start stop : Bound) :
    Doc.commaSep (start.docs ++ stop.docs) = start.toPure ++ Doc.text ", " ++ stop.toPure := by
  have more : ∃ next rest, stop.docs = next :: rest := by
    cases stop with
    | unbounded => exact ⟨_, _, rfl⟩
    | offset value unit => cases unit <;> exact ⟨_, _, rfl⟩
  obtain ⟨next, rest, he⟩ := more
  rw [← commaSep_docs stop, he]
  cases start with
  | unbounded => exact Doc.commaSep_cons_cons _ _ _
  | offset value unit =>
    cases unit with
    | none => exact Doc.commaSep_cons_cons _ _ _
    | some unit =>
      rw [Bound.docs, List.cons_append, List.singleton_append, Doc.commaSep_cons_cons,
        Doc.commaSep_cons_cons, ← List.append_assoc, ← List.append_assoc]
      rfl

/-- The function of a frame in PURE. -/
def Sql.WindowFrameMode.function : WindowFrameMode → String
  | .rows => "rows"
  | .range => "_range"

/-- The term of a frame. -/
def FrameSpec.term (frame : FrameSpec) : Term :=
  .call frame.mode.function (frame.start.terms ++ frame.stop.terms)

/-- A frame in PURE is read as its term. -/
private theorem FrameSpec.ends_toPure (layout : Layout) (frame : FrameSpec) :
    Ends layout frame.toPure frame.term := by
  have name : PureText.isName frame.mode.function = true := by cases frame.mode <;> rfl
  have bounds : List.Forall₂ (Lists layout) (frame.start.docs ++ frame.stop.docs)
      (frame.start.terms ++ frame.stop.terms) :=
    List.rel_append (frame.start.lists_docs layout) (frame.stop.lists_docs layout)
  have applied : Ends layout _ frame.term := .applied (.of_isName name) bounds
  have whole : frame.toPure = Doc.text frame.mode.function ++ Doc.text "(" ++
      Doc.commaSep (frame.start.docs ++ frame.stop.docs) ++ Doc.text ")" := by
    rw [commaSep_bounds, ← List.append_assoc, ← List.append_assoc, toPure]
    cases frame.mode <;> rfl
  exact whole ▸ applied

/-- The integer of a number is the number. -/
private theorem integer?_numberTerm (value : Int64) :
    (numberTerm (PureText.intText value)).integer? = some value.toInt := by
  rw [PureText.intText]
  by_cases negative : value.toInt < 0
  · have digits := Int.toList_toString_of_neg negative
    have term : numberTerm (toString value.toInt) =
        .negative (.word (String.ofList (Nat.toDigits 10 (-value.toInt).toNat))) := by
      rw [numberTerm, digits]
      rfl
    have opposite : -((-value.toInt).toNat : Int) = value.toInt := by omega
    rw [term, Term.integer?, String.toList_ofList, natural_toDigits, Option.map_some, opposite]
  · have counted : 0 ≤ value.toInt := Int.not_lt.mp negative
    have read : Reading.natural (toString value.toInt).toList = some value.toInt.toNat := by
      rw [Int.toList_toString counted, natural_toDigits]
    have magnitude : Magnitude (toString value.toInt).toList := by
      rw [Int.toList_toString counted]
      exact .positional (.toDigits _)
    rw [PureText.numberTerm_of_magnitude magnitude, Term.integer?, read, Option.map_some,
      Int.toNat_of_nonneg counted]

namespace PureText.Term

variable {value : Term} {n : Int}

/-- A number is no unit of time. -/
private theorem takeUnit_integer (h : value.integer? = some n) (rest : List Term) :
    takeUnit (value :: rest) = (none, value :: rest) := by
  cases value with
  | word _ | negative _ => rfl
  | _ => cases h

/-- A number is a distance, with the unit behind it. -/
private theorem takeEdge_integer (h : value.integer? = some n) (isStart : Bool) (rest : List Term) :
    takeEdge isStart (value :: rest) =
      some (.distance n (takeUnit rest).1, (takeUnit rest).2) := by
  cases value with
  | word _ | negative _ =>
    rw [takeEdge, h]
    · rfl
    · nofun
  | _ => cases h

/-- A unit of time is one. -/
private theorem takeUnit_unitTerm (unit : DurationUnit) (rest : List Term) :
    takeUnit (unitTerm unit :: rest) = (some unit, rest) := by
  cases unit <;> rfl

end PureText.Term

namespace Bound

open PureText.Term (takeUnit takeEdge)

/-- A bound does not begin with a unit of time. -/
private theorem takeUnit_terms (bound : Bound) : takeUnit bound.terms = (none, bound.terms) := by
  cases bound with
  | unbounded => rfl
  | offset value unit =>
    have number := integer?_numberTerm value
    cases unit with
    | none => exact PureText.Term.takeUnit_integer number _
    | some unit => exact PureText.Term.takeUnit_integer number _

/-- The terms of a bound are read as the bound. -/
private theorem takeEdge_terms (bound : Bound) (isStart : Bool) {rest : List Term}
    (apart : takeUnit rest = (none, rest)) :
    takeEdge isStart (bound.terms ++ rest) = some (bound.given isStart, rest) := by
  cases bound with
  | unbounded => rfl
  | offset value unit =>
    have number := integer?_numberTerm value
    cases unit with
    | none =>
      rw [terms, List.singleton_append, PureText.Term.takeEdge_integer number, apart]
      rfl
    | some unit =>
      rw [terms, List.cons_append, PureText.Term.takeEdge_integer number, List.singleton_append,
        PureText.Term.takeUnit_unitTerm]
      rfl

/-- Every receiver in the terms of a bound is read as such. -/
private theorem allRead_terms (bound : Bound) : ∀ term ∈ bound.terms, term.read = term := by
  have number (value : Int64) : (numberTerm (PureText.intText value)).read =
      numberTerm (PureText.intText value) := by
    rw [numberTerm]
    split <;> rfl
  cases bound with
  | unbounded => exact List.forall_mem_singleton.mpr rfl
  | offset value unit =>
    cases unit with
    | none => exact List.forall_mem_singleton.mpr (number value)
    | some unit =>
      refine List.forall_mem_cons.mpr ⟨number value, List.forall_mem_singleton.mpr ?_⟩
      cases unit <;> rfl

end Bound

namespace FrameSpec

/-- The term of a frame is read as the frame. -/
private theorem extent?_term (frame : FrameSpec) : frame.term.extent? = some frame.given := by
  have mode : Term.frameMode? frame.mode.function = some frame.mode := by
    cases frame.mode <;> rfl
  -- The first bound takes a unit behind its number, which the second bound does not begin with.
  have start := frame.start.takeEdge_terms true frame.stop.takeUnit_terms
  have stop := frame.stop.takeEdge_terms false (rfl : Term.takeUnit [] = (none, []))
  rw [List.append_nil] at stop
  simp only [term, Term.extent?, mode, start, stop, Option.bind_eq_bind, Option.bind_some]
  rfl

/-- A frame in PURE is read as the frame. -/
theorem ofPure?_toPure (layout : Layout) (frame : FrameSpec) :
    FrameExtent.ofPure? (layout.render frame.toPure) = some frame.given := by
  have self : frame.term.read = frame.term := by
    have bounds : ∀ term ∈ frame.start.terms ++ frame.stop.terms, term.read = term :=
      List.forall_mem_append.mpr ⟨frame.start.allRead_terms, frame.stop.allRead_terms⟩
    change Term.call _ (Term.allRead _) = Term.call _ _
    rw [Term.allRead_eq, List.map_congr_left bounds, List.map_id']
  rw [FrameExtent.ofPure?, (frame.ends_toPure layout).shows.readBack, self]
  exact frame.extent?_term

/-! ### Both texts -/

/-- A frame without the units of what is the row itself. -/
theorem unitless_given (frame : FrameSpec) :
    frame.extent = ⟨frame.given.mode, frame.given.start.unitless, frame.given.stop.unitless⟩ := by
  rw [given, frame.start.unitless_given, frame.stop.unitless_given, extent]

/-- Frames that extend over the same rows differ at most in units of the row itself. -/
theorem agrees_of_extent {frame other : FrameSpec} (same : frame.extent = other.extent) :
    frame.mode = other.mode ∧ frame.start.Agrees other.start ∧ frame.stop.Agrees other.stop := by
  obtain ⟨mode, start, stop⟩ := FrameExtent.mk.inj same
  exact ⟨mode, Bound.agrees_of_edge start, Bound.agrees_of_edge stop⟩

/-- Both texts of a frame with bounds in range, in every dialect: the SQL clause is read as the mode
and the bounds of the frame, apart from the unit of what is the row itself, and PURE as just these.
Frames with the same SQL text have the same mode and bounds, apart from such a unit. -/
theorem clause_faithful (d : Dialect) (layout : Layout) (depth : Nat) {frame : FrameSpec}
    (hs : frame.start.InRange) (he : frame.stop.InRange) :
    (∃ doc, frame.toSql.doc d depth = .ok doc ∧
      FrameExtent.ofSql? (layout.render doc) = some
        ⟨frame.given.mode, frame.given.start.unitless, frame.given.stop.unitless⟩) ∧
    FrameExtent.ofPure? (layout.render frame.toPure) = some frame.given ∧
    ∀ {other : FrameSpec} {d' : Dialect} {depth' : Nat} {doc doc' : Doc},
      other.start.InRange → other.stop.InRange → frame.toSql.doc d depth = .ok doc →
      other.toSql.doc d' depth' = .ok doc' → layout.render doc = layout.render doc' →
        frame.mode = other.mode ∧ frame.start.Agrees other.start ∧
          frame.stop.Agrees other.stop := by
  obtain ⟨doc, made, read⟩ := frame.exists_doc layout d depth hs he
  refine ⟨⟨doc, made, ?_⟩, frame.ofPure?_toPure layout, ?_⟩
  · rw [← unitless_given]
    exact read
  · intro other d' depth' doc₁ doc₂ hs' he' made₁ made₂ same
    obtain ⟨doc', made', read'⟩ := other.exists_doc layout d' depth' hs' he'
    obtain rfl : doc = doc₁ := Except.ok.inj (made.symm.trans made₁)
    obtain rfl : doc' = doc₂ := Except.ok.inj (made'.symm.trans made₂)
    rw [same, read'] at read
    exact agrees_of_extent (Option.some.inj read.symm)

/-- The day before a row. -/
def dayBefore : FrameSpec := ⟨.range, .offset (-1) (some .day), .offset 0 (some .day)⟩

/-- The row itself is at no distance in SQL, and at no days in PURE. -/
theorem clause_faithful_dayBefore : dayBefore.start.InRange ∧ dayBefore.stop.InRange ∧
    (∀ layout : Layout, ∃ doc, dayBefore.toSql.doc Sql.Database.postgres.dialect 0 = .ok doc ∧
      layout.render doc = "RANGE BETWEEN INTERVAL '1 DAY' PRECEDING AND CURRENT ROW" ∧
      FrameExtent.ofSql? (layout.render doc) =
        some ⟨.range, .distance (-1) (some .day), .distance 0 none⟩) ∧
    ∀ layout : Layout,
      layout.render dayBefore.toPure = "_range(-1, DurationUnit.DAYS, 0, DurationUnit.DAYS)" ∧
      FrameExtent.ofPure? (layout.render dayBefore.toPure) =
        some ⟨.range, .distance (-1) (some .day), .distance 0 (some .day)⟩ := by
  have start : dayBefore.start.InRange := by constructor <;> decide
  have stop : dayBefore.stop.InRange := by constructor <;> decide
  refine ⟨start, stop, fun layout ↦ ?_, fun layout ↦ ⟨rfl, ?_⟩⟩
  · obtain ⟨⟨doc, made, read⟩, -⟩ :=
      clause_faithful Sql.Database.postgres.dialect layout 0 start stop
    obtain rfl := Except.ok.inj made
    exact ⟨_, rfl, rfl, read⟩
  · exact (clause_faithful Sql.Database.postgres.dialect layout 0 start stop).2.1

end FrameSpec

end FrameQuery
