import FrameQuery.Proofs.Expr.Brackets
import FrameQuery.Proofs.Pure.Reading

/-!
# Documents that are read as terms

The documents of calls, operations and lists are read as terms if those of their parts are. An
operand is read as such wherever it stands. An argument is read between the brackets of what it is
an argument of; there an operation needs no parentheses, and has them or not.
-/

namespace FrameQuery.PureText

/-- A document that is written, and read, as an operand. -/
structure Shows (layout : Layout) (doc : Doc) (term : Term) : Prop where
  parted : Parted (layout.chars doc)
  reads : ∃ ts, Spells (layout.chars doc) ts ∧ Machine.Operand ts term

/-- A document of an operand that ends with its last token, whatever follows. -/
structure Ends (layout : Layout) (doc : Doc) (term : Term) : Prop where
  parted : Parted (layout.chars doc)
  reads : ∃ ts, Delimits (layout.chars doc) ts ∧ Machine.Operand ts term

/-- A document that is read as a term of its own between brackets, in a branch or not. -/
structure Fills (layout : Layout) (doc : Doc) (term : Term) : Prop where
  parted : Parted (layout.chars doc)
  reads : ∃ ts, Spells (layout.chars doc) ts ∧
    ∀ branched, Machine.Argument branched ts term

/-- A document that is read as an argument of a call or an item of a list. -/
def Lists (layout : Layout) (doc : Doc) (term : Term) : Prop :=
  ∃ ts, Spells (layout.chars doc) ts ∧ Machine.Argument false ts term

variable {layout : Layout} {doc left right : Doc} {term leftTerm rightTerm : Term}

/-- An operand that ends with its last token is an operand. -/
theorem Ends.shows (h : Ends layout doc term) : Shows layout doc term where
  parted := h.parted
  reads := by
    obtain ⟨ts, spelled, operand⟩ := h.reads
    exact ⟨ts, spelled.spells, operand⟩

/-- An operand may stand between brackets. -/
theorem Shows.fills (h : Shows layout doc term) : Fills layout doc term where
  parted := h.parted
  reads := by
    obtain ⟨ts, spelled, operand⟩ := h.reads
    exact ⟨ts, spelled, operand.argument⟩

/-- A term of its own may be an argument. -/
theorem Fills.lists (h : Fills layout doc term) : Lists layout doc term := by
  obtain ⟨ts, spelled, argument⟩ := h.reads
  exact ⟨ts, spelled, argument false⟩

/-- A term of its own may be a branch. -/
theorem Fills.branch (h : Fills layout doc term) :
    Lists layout (Doc.text "|" ++ doc) (.branch term) := by
  obtain ⟨ts, spelled, argument⟩ := h.reads
  refine ⟨.sign "|" :: ts, ?_, (argument true).branch⟩
  rw [Layout.chars_append, Layout.chars_text]
  exact spelled.bar h.parted

/-- The text of an operand stands alone exactly if no sign is in front of it. -/
theorem Shows.standsAlone_iff (h : Shows layout doc term) :
    StandsAlone (layout.render doc) ↔ term.signs = 0 := by
  obtain ⟨ts, spelled, operand⟩ := h.reads
  apply Machine.Operand.standsAlone_iff
  rw [Layout.render, Spells.tokens (by rwa [String.toList_ofList])]
  exact operand

/-- The text of an operand is read as its tokens are. -/
theorem Shows.readBack (h : Shows layout doc term) :
    readBack (layout.render doc) = some term.read := by
  obtain ⟨ts, spelled, operand⟩ := h.reads
  apply Machine.Operand.readBack
  rw [Layout.render, Spells.tokens (by rwa [String.toList_ofList])]
  exact operand

/-! ### Words and constants -/

/-- A word is an operand. -/
theorem Shows.word {text : String} (h : IsWord text.toList) :
    Shows layout (Doc.text text) (.word text) where
  parted := by
    rw [Layout.chars_text]
    exact h.parted
  reads := by
    rw [Layout.chars_text]
    exact ⟨_, h.spells, .word text⟩

/-- Whether a text is made of plain characters. -/
def isName (text : String) : Bool := !text.toList.isEmpty && text.toList.all Lexer.isPlain

/-- A text of plain characters is a word. -/
theorem IsWord.of_isName {text : String} (h : isName text = true) : IsWord text.toList := by
  simp only [isName, Bool.and_eq_true, Bool.not_eq_true', List.isEmpty_eq_false_iff] at h
  exact .of_plain h.1 (List.all_eq_true.mp h.2)

/-- A text between quotes is an operand. -/
theorem Ends.stringText {text : String} (plain : '\\' ∉ text.toList) :
    Ends layout (Doc.text (stringText text)) (.text text) where
  parted := by
    rw [Layout.chars_text, PureText.stringText, Quoted.backslashed, String.toList_ofList]
    exact ⟨'\'', _, rfl, by decide⟩
  reads := by
    rw [Layout.chars_text]
    exact ⟨_, .quoted plain, .text text⟩

/-- A number; its sign is one in front of it. -/
def numberTerm (text : String) : Term :=
  match text.toList with
  | '-' :: magnitude => .negative (.word (String.ofList magnitude))
  | _ => .word text

/-- Magnitudes start with no minus. -/
private theorem head_magnitude {magnitude : List Char} (h : Magnitude magnitude) :
    ∀ rest, magnitude ≠ '-' :: rest := by
  have digit {c : Char} (h : c.isDigit = true) : c ≠ '-' := by
    rintro rfl
    cases h
  intro rest he
  cases h with
  | infinite | noNumber => cases he
  | positional h =>
    obtain ⟨c, more, rfl, hc⟩ := h.head
    exact digit hc (List.cons.inj he).1
  | scaled _ h =>
    obtain ⟨c, more, rfl, hc⟩ := h.head
    exact digit hc (List.cons.inj he).1

/-- A number without a minus is a word. -/
theorem numberTerm_of_magnitude {text : String} (h : Magnitude text.toList) :
    numberTerm text = .word text := by
  rw [numberTerm]
  split
  · next rest hr => exact absurd hr (head_magnitude h rest)
  · rfl

/-- A number is negative if a minus is in front of its magnitude. -/
theorem isNegative_numberTerm {text : String} {negative : Bool} {magnitude : List Char}
    (h : Magnitude magnitude) (he : text.toList = minus negative ++ magnitude) :
    (numberTerm text).isNegative = negative := by
  rw [numberTerm]
  cases negative with
  | true =>
    rw [he]
    rfl
  | false =>
    have whole : text.toList = magnitude := he
    rw [← numberTerm, numberTerm_of_magnitude (whole ▸ h)]
    rfl

/-- A number is an operand. -/
theorem Shows.number {text : String} {negative : Bool} {magnitude : List Char}
    (h : Magnitude magnitude) (he : text.toList = minus negative ++ magnitude) :
    Shows layout (Doc.text text) (numberTerm text) := by
  have isWord := IsWord.magnitude h
  cases negative with
  | false =>
    have whole : text.toList = magnitude := he
    rw [numberTerm_of_magnitude (whole ▸ h)]
    apply Shows.word
    rwa [whole]
  | true =>
    have signed : numberTerm text = .negative (.word (String.ofList magnitude)) := by
      rw [numberTerm, he]
      rfl
    have spelled : Spells magnitude [.word (String.ofList magnitude)] := by
      have all : Spells (String.ofList magnitude).toList [.word (String.ofList magnitude)] :=
        IsWord.spells (by rwa [String.toList_ofList])
      rwa [String.toList_ofList] at all
    rw [signed]
    constructor
    · rw [Layout.chars_text, he]
      exact ⟨'-', magnitude, rfl, by decide⟩
    · rw [Layout.chars_text, he]
      exact ⟨_, spelled.minus isWord.parted, Machine.Operand.negative (.word _)⟩

/-- An integer is an operand. -/
theorem Shows.intText (n : Int64) :
    Shows layout (Doc.text (intText n)) (numberTerm (intText n)) := by
  obtain ⟨text, mantissa, he⟩ := Int.exists_mantissa n.toInt
  exact .number (.positional mantissa) he

/-- An integer is in no parentheses. -/
theorem strip_intText (n : Int64) : strip (Doc.text (intText n)) = Doc.text (intText n) := by
  apply Doc.strip_of_head
  intro head
  obtain ⟨c, hc, he⟩ := List.mem_map.mp (List.mem_of_mem_head? head)
  obtain rfl := Glyph.char.inj he
  exact absurd (Int.numeric n.toInt _ hc) (by decide)

/-- An integer is an argument. -/
theorem lists_intText (n : Int64) :
    Lists layout (strip (Doc.text (intText n))) (numberTerm (intText n)) := by
  rw [strip_intText]
  exact (Shows.intText n).fills.lists

/-- A text between quotes is an argument. -/
theorem lists_stringText {text : String} (plain : '\\' ∉ text.toList) :
    Lists layout (strip (Doc.text (stringText text))) (.text text) := by
  rw [strip, Doc.strip_of_head]
  · exact (Ends.stringText plain).shows.fills.lists
  · rw [stringText, Quoted.backslashed, Doc.text, String.toList_ofList]
    simp

/-! ### Brackets -/

open Machine (listed)

/-- Documents with commas between them, up to the bracket behind them. -/
private theorem delimits_commaSep {close : Char} {bracket : Token} {docs : List Doc}
    {tss : List (List Token)}
    (h : List.Forall₂ (fun doc ts ↦ Spells (layout.chars doc) ts) docs tss)
    (closing : close ∈ [' ', ')', ']', ',']) (hc : Delimits [close] [bracket]) :
    Delimits (layout.chars (Doc.commaSep docs) ++ [close]) (listed tss ++ [bracket]) := by
  induction h with
  | nil => exact hc
  | @cons doc ts docs tss first rest ih =>
    cases rest with
    | nil =>
      rw [Doc.commaSep_singleton]
      exact first.append_delimits hc fun _ ↦ .mark closing
    | @cons next us docs tss second rest =>
      have comma : Delimits ", ".toList [.comma] := fun _ ↦ rfl
      have parts : listed (ts :: us :: tss) = ts ++ ([.comma] ++ listed (us :: tss)) := rfl
      have behind := first.append_delimits (comma.append ih) fun _ ↦ .mark (by decide)
      rw [Doc.commaSep_cons_cons, parts, Layout.chars_append, Layout.chars_append,
        Layout.chars_text]
      simpa only [List.append_assoc] using behind

/-- Arguments with the tokens of each. -/
private theorem exists_tokens {docs : List Doc} {terms : List Term}
    (h : List.Forall₂ (Lists layout) docs terms) :
    ∃ tss, List.Forall₂ (fun doc ts ↦ Spells (layout.chars doc) ts) docs tss ∧
      List.Forall₂ (Machine.Argument false) tss terms := by
  induction h with
  | nil => exact ⟨[], .nil, .nil⟩
  | cons first rest ih =>
    obtain ⟨ts, spelled, argument⟩ := first
    obtain ⟨tss, all, arguments⟩ := ih
    exact ⟨ts :: tss, .cons spelled all, .cons argument arguments⟩

variable {function : String} {arguments : List Doc} {terms : List Term}

/-- A name and its arguments in parentheses. -/
private theorem delimits_applied {tss : List (List Token)} (hf : IsWord function.toList)
    (h : List.Forall₂ (fun doc ts ↦ Spells (layout.chars doc) ts) arguments tss) :
    Delimits (layout.chars (Doc.text function ++ "(" ++ Doc.commaSep arguments ++ ")"))
      (.function function :: listed tss ++ [.closing]) := by
  have inside : Delimits (layout.chars (Doc.commaSep arguments) ++ [')'])
      (listed tss ++ [.closing]) := delimits_commaSep h (by decide) fun _ ↦ rfl
  have behind := hf.delimits.append inside
  rw [Layout.chars_append, Layout.chars_append, Layout.chars_append, Layout.chars_text,
    Layout.chars_text, Layout.chars_text, List.append_assoc, List.append_assoc]
  rw [List.append_assoc] at behind
  exact behind

/-- A name and its arguments are an operand. -/
theorem Ends.applied (hf : IsWord function.toList)
    (h : List.Forall₂ (Lists layout) arguments terms) :
    Ends layout (Doc.text function ++ "(" ++ Doc.commaSep arguments ++ ")")
      (.call function terms) where
  parted := by
    rw [Layout.chars_append, Layout.chars_append, Layout.chars_append, Layout.chars_text,
      List.append_assoc, List.append_assoc]
    exact hf.parted.append _
  reads := by
    obtain ⟨tss, spelled, read⟩ := exists_tokens h
    exact ⟨_, delimits_applied hf spelled, .call function read⟩

/-- A call is an operand. -/
theorem Ends.call (hf : IsWord function.toList)
    (h : List.Forall₂ (fun argument ↦ Lists layout (strip argument)) arguments terms) :
    Ends layout (call function arguments) (.call function terms) :=
  .applied hf (List.forall₂_map_left_iff.mpr h)

/-- A call behind an arrow is an operand. -/
theorem Ends.arrow (hr : Shows layout doc term) (hf : IsWord function.toList)
    (h : List.Forall₂ (fun argument ↦ Lists layout (strip argument)) arguments terms) :
    Ends layout (arrow doc function arguments) (.arrow term function terms) where
  parted := by
    rw [PureText.arrow, Layout.chars_append, Layout.chars_append, List.append_assoc]
    exact hr.parted.append _
  reads := by
    obtain ⟨ts, receiver, operand⟩ := hr.reads
    obtain ⟨tss, spelled, read⟩ := exists_tokens (List.forall₂_map_left_iff.mpr h)
    have arrow : Delimits "->".toList [.arrow] := fun _ ↦ rfl
    have behind := receiver.append_delimits (arrow.append (delimits_applied hf spelled))
      fun _ ↦ .arrow
    refine ⟨_, ?_, operand.arrow function read⟩
    rw [PureText.arrow, Layout.chars_append, Layout.chars_append, Layout.chars_text,
      List.append_assoc, List.append_assoc]
    exact behind

/-- A list is an operand. -/
theorem Ends.list {items : List Doc} (h : List.Forall₂ (Lists layout) items terms) :
    Ends layout (Doc.text "[" ++ Doc.commaSep items ++ Doc.text "]") (.list terms) where
  parted := by
    rw [Layout.chars_append, Layout.chars_append, Layout.chars_text, List.append_assoc]
    exact ⟨'[', _, rfl, by decide⟩
  reads := by
    obtain ⟨tss, spelled, read⟩ := exists_tokens h
    have opening : Delimits "[".toList [.openingList] := fun _ ↦ rfl
    have inside : Delimits (layout.chars (Doc.commaSep items) ++ [']'])
        (listed tss ++ [.closingList]) := delimits_commaSep spelled (by decide) fun _ ↦ rfl
    have behind := opening.append inside
    refine ⟨_, ?_, .list read⟩
    rw [Layout.chars_append, Layout.chars_append, Layout.chars_text, Layout.chars_text,
      List.append_assoc]
    exact behind

/-! ### Members -/

/-- A document of an operand that ends before a point. -/
structure Pointed (layout : Layout) (doc : Doc) (term : Term) : Prop where
  parted : Parted (layout.chars doc)
  reads : ∃ ts, Delimits (layout.chars doc ++ ['.']) (ts ++ [.point]) ∧ Machine.Operand ts term

/-- An operand that ends with its last token ends before a point. -/
theorem Ends.pointed (h : Ends layout doc term) : Pointed layout doc term where
  parted := h.parted
  reads := by
    obtain ⟨ts, spelled, operand⟩ := h.reads
    have point : Delimits ['.'] [.point] := fun _ ↦ rfl
    exact ⟨ts, spelled.append point, operand⟩

/-- A word ends before a point if the point does not belong to it. -/
theorem Pointed.word {text : String} (h : IsWord text.toList)
    (ends : Lexer.belongs text.toList '.' = false) :
    Pointed layout (Doc.text text) (.word text) where
  parted := by
    rw [Layout.chars_text]
    exact h.parted
  reads := by
    refine ⟨[.word text], ?_, .word text⟩
    intro rest
    have step : (Lexer.word text.toList).next '.' = ([.word text, .point], .between) := by
      rw [Lexer.next, Lexer.resume, if_neg (by decide), if_neg (by decide), ends,
        String.ofList_toList]
      rfl
    rw [Layout.chars_text, List.append_assoc, h.reads, List.singleton_append, Lexer.tokens, step]
    rfl

/-- A member of a value is an operand. -/
theorem Shows.member (h : Pointed layout doc term) {name spelling : String} {t : Token}
    (hs : Spells spelling.toList [t]) (ht : t = .word name ∨ t = .text name) :
    Shows layout (doc ++ Doc.text "." ++ Doc.text spelling) (.member term name) where
  parted := by
    rw [Layout.chars_append, Layout.chars_append, List.append_assoc]
    exact h.parted.append _
  reads := by
    obtain ⟨ts, spelled, operand⟩ := h.reads
    have behind := spelled.append_spells hs
    refine ⟨_, ?_, operand.member name ht⟩
    rw [List.append_assoc ts] at behind
    rw [Layout.chars_append, Layout.chars_append, Layout.chars_text, Layout.chars_text]
    exact behind

/-- A column of a row is an operand. -/
theorem Shows.column (h : Pointed layout doc term) {name : String} (plain : '\\' ∉ name.toList) :
    Shows layout (doc ++ Doc.text "." ++ Doc.text (columnName name)) (.member term name) := by
  rw [columnName]
  split
  · next identifier => exact .member h (IsWord.identifier identifier).spells (.inl rfl)
  · exact .member h (Delimits.quoted plain).spells (.inr rfl)

/-! ### Operations -/

variable {symbol : String}

/-- A sign between two operands. -/
private theorem exists_operation (hl : Shows layout left leftTerm)
    (hr : Shows layout right rightTerm) (known : symbol ∈ infixes) :
    ∃ ts, Spells (layout.chars (left ++ Doc.text " " ++ Doc.text symbol ++ Doc.text " " ++ right))
      ts ∧ ∀ branched,
        Machine.Argument branched ts (.operation symbol leftTerm rightTerm) := by
  obtain ⟨ts, first, operand⟩ := hl.reads
  obtain ⟨us, second, other⟩ := hr.reads
  have sign : Delimits (" ".toList ++ symbol.toList ++ " ".toList) [.sign symbol] := by
    simp only [infixes, List.mem_cons, List.not_mem_nil, or_false] at known
    rcases known with rfl | rfl | rfl | rfl | rfl | rfl | rfl | rfl | rfl | rfl | rfl | rfl <;>
      exact fun _ ↦ rfl
  have left := first.append_delimits sign fun _ ↦ .mark (by decide)
  refine ⟨_, ?_, fun branched ↦ .operation branched known operand other⟩
  have both := left.append_spells second
  simp only [Layout.chars_append, Layout.chars_text, List.append_assoc]
  simp only [List.append_assoc] at both
  exact both

/-- An operation in its parentheses is an operand. -/
theorem Ends.operation (hl : Shows layout left leftTerm) (hr : Shows layout right rightTerm)
    (known : symbol ∈ infixes) :
    Ends layout (operation symbol left right) (.operation symbol leftTerm rightTerm) where
  parted := by
    rw [PureText.operation]
    simp only [Layout.chars_append, Layout.chars_text, List.append_assoc]
    exact ⟨'(', _, rfl, by decide⟩
  reads := by
    obtain ⟨ts, spelled, argument⟩ := exists_operation hl hr known
    have opening : Delimits "(".toList [.opening] := fun _ ↦ rfl
    have closing : Delimits ")".toList [.closing] := fun _ ↦ rfl
    have behind := opening.append (spelled.append_delimits closing fun _ ↦ .mark (by decide))
    refine ⟨_, ?_, (argument false).enclosed rfl⟩
    rw [PureText.operation]
    simp only [Layout.chars_append, Layout.chars_text, List.append_assoc] at behind ⊢
    exact behind

/-- An operation may lose its parentheses where it stands between brackets. -/
theorem Fills.operation (hl : Shows layout left leftTerm) (hr : Shows layout right rightTerm)
    (known : symbol ∈ infixes) :
    Fills layout (strip (operation symbol left right))
      (.operation symbol leftTerm rightTerm) := by
  have whole := operation_eq symbol left right
  rw [strip, Doc.stripOuterParens]
  split
  · have bare : (PureText.operation symbol left right).tail.dropLast =
        left ++ Doc.text " " ++ Doc.text symbol ++ Doc.text " " ++ right := by
      rw [whole]
      exact List.dropLast_concat
    rw [bare]
    refine ⟨?_, exists_operation hl hr known⟩
    simp only [Layout.chars_append, List.append_assoc]
    exact hl.parted.append _
  · exact (Ends.operation hl hr known).shows.fills

/-- A document that does not start with a parenthesis keeps all it has. -/
theorem Shows.lists (h : Shows layout doc term) (head : doc.head? ≠ some (.char '(')) :
    Lists layout (strip doc) term := by
  rw [strip, Doc.strip_of_head head]
  exact h.fills.lists

/-- A document that is found in no outer parentheses keeps all it has. -/
theorem Shows.strip (h : Shows layout doc term) (bare : Doc.hasOuterParens [] doc = false) :
    Fills layout (strip doc) term := by
  rw [PureText.strip, Doc.stripOuterParens, bare]
  exact h.fills

end FrameQuery.PureText
