import FrameQuery.Proofs.Number.Numerals
import FrameQuery.Proofs.Text.Brackets

/-!
# Tokens of PURE

PURE text is read token by token. A word is a run of letters and digits; a number goes on with
points and with the sign of its exponent, a date with points, colons and hyphens. A name directly
before a parenthesis is called. A text between quotes is read with its escapes undone. A minus and
a relation sign after it make an arrow, also directly behind a number or a date.
-/

namespace FrameQuery.PureText

/-- What PURE text is made of. -/
inductive Token where
  | word (text : String)
  /-- A name and the parenthesis behind it. -/
  | function (name : String)
  /-- What a text between quotes says. -/
  | text (content : String)
  | sign (text : String)
  | arrow
  | point
  | comma
  | opening
  | closing
  | openingList
  | closingList
  /-- A text between quotes that does not end. -/
  | unterminated
  deriving DecidableEq, Repr

/-- What has been read of a token. -/
inductive Lexer where
  | between
  | word (text : List Char)
  /-- A word and a minus, which may belong to the word or be the start of an arrow. -/
  | hyphen (text : List Char)
  /-- A minus, which may be the start of an arrow. -/
  | minus
  | relation (text : List Char)
  | quoted (content : List Char)
  /-- Inside quotes, behind a backslash. -/
  | escaped (content : List Char)
  deriving DecidableEq, Repr

namespace Lexer

/-- Characters that stand for themselves. -/
def singles : List (Char × Token) :=
  [('(', .opening), (')', .closing), ('[', .openingList), (']', .closingList), (',', .comma),
    ('.', .point), ('+', .sign "+"), ('*', .sign "*"), ('/', .sign "/"), (':', .sign ":"),
    ('~', .sign "~"), ('\x7b', .sign "\x7b"), ('\x7d', .sign "\x7d"), ('\\', .sign "\\")]

/-- Signs that relations and connectives are made of. -/
def relations : List Char := ['=', '!', '<', '>', '&', '|']

/-- Whether a character is such a sign. -/
def isRelation (c : Char) : Bool := c ∈ relations

/-- Characters that are no part of a plain word. -/
def marks : List Char := [' ', '\n', '-', '\''] ++ relations ++ singles.map (·.1)

/-- Characters that any word goes on with. -/
def isPlain (c : Char) : Bool := c ∉ marks

/-- Whether a word goes on with a character. -/
def belongs (text : List Char) (c : Char) : Bool :=
  match text.head? with
  | none => false
  | some first =>
    isPlain c || (c == '.' && first.isDigit) || (['.', ':', '+'].contains c && first == '%')

/-- Whether a word goes on with a minus. -/
def isHyphenated (text : List Char) : Bool :=
  match text.head? with
  | none => false
  | some first => first == '%' || (first.isDigit && text.getLast? == some 'e')

/-- The tokens that end with the text. -/
def flush : Lexer → List Token
  | between => []
  | word text => [.word (String.ofList text)]
  | hyphen text => [.word (String.ofList text), .sign "-"]
  | minus => [.sign "-"]
  | relation text => [.sign (String.ofList text)]
  | quoted _ | escaped _ => [.unterminated]

/-- What a character starts. -/
def start (c : Char) : List Token × Lexer :=
  if isPlain c then ([], word [c])
  else match singles.lookup c with
    | some token => ([token], between)
    | none =>
      if c = '\'' then ([], quoted [])
      else if c = '-' then ([], minus)
      else if isRelation c then ([], relation [c])
      else ([], between)

/-- What a character says behind a word. -/
def resume (text : List Char) (c : Char) : List Token × Lexer :=
  if c = '(' then ([.function (String.ofList text)], between)
  else if c = '-' then ([], hyphen text)
  else if belongs text c then ([], word (text ++ [c]))
  else (.word (String.ofList text) :: (start c).1, (start c).2)

/-- The tokens that end before a character, and what is read then. -/
def next : Lexer → Char → List Token × Lexer
  | between, c => start c
  | word text, c => resume text c
  | hyphen text, c =>
    if c = '>' then ([.word (String.ofList text), .arrow], between)
    else if isHyphenated text then resume (text ++ ['-']) c
    else (.word (String.ofList text) :: .sign "-" :: (start c).1, (start c).2)
  | minus, c =>
    if c = '>' then ([.arrow], between) else (.sign "-" :: (start c).1, (start c).2)
  | relation text, c =>
    if isRelation c then ([], relation (text ++ [c]))
    else (.sign (String.ofList text) :: (start c).1, (start c).2)
  | quoted content, c =>
    if c = '\'' then ([.text (String.ofList content)], between)
    else if c = '\\' then ([], escaped content)
    else ([], quoted (content ++ [c]))
  | escaped content, c => ([], quoted (content ++ [c]))

/-- The tokens of the rest of a text. -/
def tokens : Lexer → List Char → List Token
  | lexer, [] => lexer.flush
  | lexer, c :: rest => (lexer.next c).1 ++ (lexer.next c).2.tokens rest

end Lexer

/-- The tokens of a text. -/
def tokens (text : String) : List Token := Lexer.between.tokens text.toList

/-! ### Composition -/

/-- A text before which a word ends: nothing, a blank, a closing bracket, a comma or an arrow. -/
inductive Breaks : List Char → Prop
  | nil : Breaks []
  | mark {c : Char} {rest : List Char} (h : c ∈ [' ', ')', ']', ',']) : Breaks (c :: rest)
  | arrow {rest : List Char} : Breaks ('-' :: '>' :: rest)

/-- A text of some tokens, before a text that breaks. -/
def Spells (text : List Char) (ts : List Token) : Prop :=
  ∀ rest, Breaks rest → Lexer.between.tokens (text ++ rest) = ts ++ Lexer.between.tokens rest

/-- A text of some tokens that ends with the last of them, whatever follows. -/
def Delimits (text : List Char) (ts : List Token) : Prop :=
  ∀ rest, Lexer.between.tokens (text ++ rest) = ts ++ Lexer.between.tokens rest

/-- A text that starts with no relation sign, so that one in front of it ends there. -/
def Parted (text : List Char) : Prop := ∃ c rest, text = c :: rest ∧ Lexer.isRelation c = false

variable {first second text more : List Char} {ts us : List Token} {c : Char}

/-- Only the start counts. -/
theorem Parted.append (h : Parted first) (second : List Char) : Parted (first ++ second) := by
  obtain ⟨c, rest, rfl, plain⟩ := h
  exact ⟨c, rest ++ second, rfl, plain⟩

/-- A text that ends with its tokens. -/
theorem Delimits.spells (h : Delimits text ts) : Spells text ts := fun rest _ ↦ h rest

/-- Behind a text that ends with its tokens stand the tokens of the next one. -/
theorem Delimits.append_spells (hf : Delimits first ts) (hs : Spells second us) :
    Spells (first ++ second) (ts ++ us) := by
  intro rest breaks
  rw [List.append_assoc, hf, hs rest breaks, List.append_assoc]

/-- Texts that end with their tokens. -/
theorem Delimits.append (hf : Delimits first ts) (hs : Delimits second us) :
    Delimits (first ++ second) (ts ++ us) := by
  intro rest
  rw [List.append_assoc, hf, hs, List.append_assoc]

/-- A text that breaks and ends with its tokens, behind another text. -/
theorem Spells.append_delimits (hf : Spells first ts) (hs : Delimits second us)
    (breaks : ∀ rest, Breaks (second ++ rest)) : Delimits (first ++ second) (ts ++ us) := by
  intro rest
  rw [List.append_assoc, hf _ (breaks rest), hs, List.append_assoc]

/-- A text is read with its tokens. -/
theorem Spells.tokens {text : String} (h : Spells text.toList ts) : tokens text = ts := by
  have all := h [] .nil
  rw [List.append_nil] at all
  rw [PureText.tokens, all, Lexer.tokens, Lexer.flush, List.append_nil]

/-! ### Words -/

open Lexer (isPlain isRelation belongs isHyphenated)

/-- Plain characters are no marks. -/
private theorem ne_of_isPlain (h : isPlain c = true) :
    c ≠ '(' ∧ c ≠ '-' ∧ isRelation c = false := by
  have other {d : Char} (hd : isPlain d = false) : c ≠ d := by
    rintro rfl
    rw [hd] at h
    cases h
  refine ⟨other rfl, other rfl, ?_⟩
  rw [isRelation, decide_eq_false_iff_not]
  intro hc
  exact of_decide_eq_true h (List.mem_append_left _ (List.mem_append_right _ hc))

/-- Before a text that breaks a word ends. -/
theorem Lexer.tokens_word {rest : List Char} (ne : text ≠ []) (breaks : Breaks rest) :
    (word text).tokens rest = .word (String.ofList text) :: between.tokens rest := by
  cases breaks with
  | nil => rfl
  | arrow => rfl
  | @mark c rest hc =>
    obtain ⟨d, text, rfl⟩ := List.exists_cons_of_ne_nil ne
    have step : (word (d :: text)).next c =
        (.word (String.ofList (d :: text)) :: (start c).1, (start c).2) := by
      simp only [List.mem_cons, List.not_mem_nil, or_false] at hc
      rcases hc with rfl | rfl | rfl | rfl <;> rfl
    rw [tokens, step]
    rfl

/-- A text that is read as a single word, whatever follows. -/
structure IsWord (text : List Char) : Prop where
  parted : Parted text
  reads : ∀ rest, Lexer.between.tokens (text ++ rest) = (Lexer.word text).tokens rest

/-- A word is a token. -/
theorem IsWord.spells {text : String} (h : IsWord text.toList) :
    Spells text.toList [.word text] := by
  intro rest breaks
  have ne : text.toList ≠ [] := by
    obtain ⟨c, rest, he, -⟩ := h.parted
    rw [he]
    exact List.cons_ne_nil _ _
  rw [h.reads rest, Lexer.tokens_word ne breaks, String.ofList_toList]
  rfl

/-- A name and the parenthesis behind it are a token. -/
theorem IsWord.delimits {text : String} (h : IsWord text.toList) :
    Delimits (text.toList ++ ['(']) [.function text] := by
  intro rest
  have step : (Lexer.word text.toList).next '(' = ([.function text], .between) := by
    rw [Lexer.next, Lexer.resume, if_pos rfl, String.ofList_toList]
  rw [List.append_assoc, h.reads, List.singleton_append, Lexer.tokens, step]

/-- A word goes on with the characters that belong to it. -/
private theorem Lexer.tokens_belonging {rest : List Char}
    (h : ∀ d ∈ more, d ≠ '(' ∧ d ≠ '-' ∧ belongs [c] d = true) :
    (word (c :: text)).tokens (more ++ rest) = (word (c :: (text ++ more))).tokens rest := by
  induction more generalizing text with
  | nil => rw [List.nil_append, List.append_nil]
  | cons d more ih =>
    obtain ⟨⟨opening, hyphen, goes⟩, others⟩ := List.forall_mem_cons.mp h
    have goes : belongs (c :: text) d = true := goes
    have step : (word (c :: text)).next d = ([], word (c :: (text ++ [d]))) := by
      rw [next, resume, if_neg opening, if_neg hyphen, if_pos goes]
      rfl
    rw [List.cons_append, tokens, step, List.nil_append, ih others, List.append_assoc]
    rfl

/-- A plain character starts a word. -/
theorem IsWord.singleton (h : isPlain c = true) : IsWord [c] where
  parted := ⟨c, [], rfl, (ne_of_isPlain h).2.2⟩
  reads rest := by
    have step : Lexer.between.next c = ([], .word [c]) := by
      rw [Lexer.next, Lexer.start, if_pos h]
    rw [List.singleton_append, Lexer.tokens, step, List.nil_append]

/-- A word goes on with the characters that belong to it. -/
theorem IsWord.append (h : IsWord (c :: text))
    (all : ∀ d ∈ more, d ≠ '(' ∧ d ≠ '-' ∧ belongs [c] d = true) :
    IsWord (c :: (text ++ more)) where
  parted := h.parted.append more
  reads rest := by
    have all := h.reads (more ++ rest)
    rwa [Lexer.tokens_belonging ‹_›, ← List.append_assoc] at all

/-- A word goes on with a minus that belongs to it. -/
theorem IsWord.append_hyphen {d : Char} (h : IsWord (c :: text))
    (hyphenated : isHyphenated (c :: text) = true)
    (next : d ≠ '(' ∧ d ≠ '-' ∧ belongs [c] d = true) (apart : d ≠ '>') :
    IsWord (c :: (text ++ ['-', d])) where
  parted := h.parted.append ['-', d]
  reads rest := by
    have goes : belongs (c :: text ++ ['-']) d = true := next.2.2
    have first : (Lexer.word (c :: text)).next '-' = ([], .hyphen (c :: text)) := rfl
    have second : (Lexer.hyphen (c :: text)).next d = ([], .word (c :: (text ++ ['-', d]))) := by
      rw [Lexer.next, if_neg apart, if_pos hyphenated, Lexer.resume, if_neg next.1, if_neg next.2.1,
        if_pos goes, List.append_assoc]
      rfl
    have all := h.reads ('-' :: d :: rest)
    rw [Lexer.tokens, first, List.nil_append, Lexer.tokens, second, List.nil_append] at all
    simpa using all

/-- Plain characters belong to any word. -/
private theorem belongs_of_isPlain (h : isPlain c = true) (first : Char) :
    c ≠ '(' ∧ c ≠ '-' ∧ belongs [first] c = true :=
  ⟨(ne_of_isPlain h).1, (ne_of_isPlain h).2.1, by simp [belongs, h]⟩

/-- A text of plain characters is a word. -/
theorem IsWord.of_plain (ne : text ≠ []) (h : ∀ c ∈ text, isPlain c = true) : IsWord text := by
  obtain ⟨c, text, rfl⟩ := List.exists_cons_of_ne_nil ne
  obtain ⟨hc, ht⟩ := List.forall_mem_cons.mp h
  exact (IsWord.singleton hc).append fun d hd ↦ belongs_of_isPlain (ht d hd) c

/-- Characters with a property that no mark has are plain. -/
private theorem isPlain_of_apart {p : Char → Bool} (apart : (Lexer.marks.all fun d ↦ !p d) = true)
    (h : p c = true) : isPlain c = true := by
  rw [isPlain, decide_eq_true_iff]
  intro mark
  have other := List.all_eq_true.mp apart c mark
  rw [h] at other
  cases other

/-- An identifier is a word. -/
theorem IsWord.identifier {name : String} (h : Identifier.isIdentifier name = true) :
    IsWord name.toList := by
  have continues : ∀ c ∈ name.toList, Identifier.isContinue c = true :=
    Identifier.isContinue_of_mem h
  refine .of_plain ?_ fun c hc ↦ ?_
  · intro empty
    rw [Identifier.isIdentifier, empty] at h
    cases h
  · exact isPlain_of_apart (by decide) (continues c hc)

/-! ### Numbers and dates -/

/-- Digits are plain. -/
private theorem isPlain_of_isDigit (h : c.isDigit = true) : isPlain c = true :=
  isPlain_of_apart (by decide) h

/-- What belongs to a number: digits and points. -/
private theorem belongs_of_mantissa (h : Mantissa text) (hc : c.isDigit = true) :
    ∀ d ∈ text, d ≠ '(' ∧ d ≠ '-' ∧ belongs [c] d = true := by
  intro d hd
  rcases h.all d hd with digit | rfl
  · exact belongs_of_isPlain (isPlain_of_isDigit digit) c
  · exact ⟨by decide, by decide, by simp [belongs, hc]⟩

/-- Magnitudes of numbers are words. -/
theorem IsWord.magnitude (h : Magnitude text) : IsWord text := by
  cases h with
  | infinite | noNumber => exact .of_plain nofun (List.all_eq_true.mp rfl)
  | positional h =>
    obtain ⟨c, rest, rfl, hc⟩ := h.head
    exact (IsWord.singleton (isPlain_of_isDigit hc)).append
      (List.forall_mem_cons.mp (belongs_of_mantissa h hc)).2
  | @scaled text power negative ht hp =>
    obtain ⟨c, rest, rfl, hc⟩ := ht.head
    obtain ⟨d, more, rfl, hd⟩ := hp.head
    have mantissa : IsWord (c :: rest) := (IsWord.singleton (isPlain_of_isDigit hc)).append
      (List.forall_mem_cons.mp (belongs_of_mantissa ht hc)).2
    have letter : IsWord (c :: (rest ++ ['e'])) :=
      mantissa.append (List.forall_mem_singleton.mpr (belongs_of_isPlain rfl c))
    have digits := belongs_of_mantissa hp hc
    cases negative with
    | false =>
      have whole := letter.append digits
      rwa [List.append_assoc] at whole
    | true =>
      have last : (c :: (rest ++ ['e'])).getLast? = some 'e' := by
        rw [← List.cons_append, List.getLast?_concat]
      have hyphenated : isHyphenated (c :: (rest ++ ['e'])) = true := by
        simp [isHyphenated, hc, last]
      obtain ⟨first, others⟩ := List.forall_mem_cons.mp digits
      have apart : d ≠ '>' := by
        rintro rfl
        cases hd
      have whole := (letter.append_hyphen hyphenated first apart).append others
      simpa [minus] using whole

/-- A text of characters of dates without hyphens. -/
private def Undashed (text : String) : Prop := ∀ c ∈ text.toList, isNumeral c = true ∧ c ≠ '-'

/-- Such a text, character by character. -/
private theorem Undashed.of_all {text : String}
    (h : (text.toList.all fun c ↦ isNumeral c && c != '-') = true) : Undashed text := by
  intro c hc
  have whole := List.all_eq_true.mp h c hc
  rwa [Bool.and_eq_true, bne_iff_ne] at whole

/-- Such texts one after the other. -/
private theorem Undashed.append {first second : String} (hf : Undashed first)
    (hs : Undashed second) : Undashed (first ++ second) := by
  rw [Undashed, String.toList_append, List.forall_mem_append]
  exact ⟨hf, hs⟩

/-- Numbers of a fixed width have no hyphens. -/
private theorem undashed_padded (width n : Nat) : Undashed (Calendar.padded width n) := by
  intro c hc
  rw [Calendar.padded, String.toList_ofList, List.mem_append] at hc
  have digit : c.isDigit = true := by
    rcases hc with hc | hc
    · rw [List.eq_of_mem_replicate hc]
      rfl
    · exact Nat.isDigit_of_mem_toDigits (by decide) (by decide) hc
  constructor
  · rw [isNumeral, digit, Bool.true_or]
  · rintro rfl
    cases digit

/-- Fractions have no hyphens. -/
private theorem undashed_fractionText (nanos : Nat) : Undashed (Calendar.fractionText nanos) := by
  have point (width n : Nat) : Undashed ("." ++ Calendar.padded width n) :=
    .append (.of_all rfl) (undashed_padded width n)
  rw [Calendar.fractionText]
  split
  · exact .of_all rfl
  · split
    · exact point _ _
    · split <;> exact point _ _

/-- What belongs to a date. -/
private theorem belongs_of_undashed {text : String} (h : Undashed text) :
    ∀ d ∈ text.toList, (d ≠ '(' ∧ d ≠ '-' ∧ belongs ['%'] d = true) ∧ d ≠ '>' := by
  intro d hd
  obtain ⟨numeral, hyphen⟩ := h d hd
  rw [isNumeral, Bool.or_eq_true] at numeral
  rcases numeral with digit | letter
  · have plain := isPlain_of_isDigit digit
    refine ⟨belongs_of_isPlain plain '%', ?_⟩
    rintro rfl
    cases plain
  · simp only [List.contains_eq_mem, List.mem_cons, List.not_mem_nil, or_false,
      decide_eq_true_iff] at letter
    rcases letter with rfl | rfl | rfl | rfl | rfl | rfl | rfl | rfl | rfl | rfl | rfl
    · exact absurd rfl hyphen
    all_goals decide

/-- A date goes on with numbers. -/
private theorem IsWord.append_dated {text more : String} (h : IsWord ('%' :: text.toList))
    (undashed : Undashed more) : IsWord ('%' :: (text ++ more).toList) := by
  rw [String.toList_append]
  exact h.append fun d hd ↦ (belongs_of_undashed undashed d hd).1

/-- A date goes on with numbers behind a hyphen. -/
private theorem IsWord.append_dashed {text more : String} (h : IsWord ('%' :: text.toList))
    (ne : more ≠ "") (undashed : Undashed more) :
    IsWord ('%' :: (text ++ "-" ++ more).toList) := by
  have belong := belongs_of_undashed undashed
  obtain ⟨d, rest, he⟩ := List.exists_cons_of_ne_nil (String.toList_eq_nil_iff.not.mpr ne)
  rw [he] at belong
  obtain ⟨⟨first, apart⟩, others⟩ := List.forall_mem_cons.mp belong
  have whole := (h.append_hyphen rfl first apart).append fun d hd ↦ (others d hd).1
  rw [String.toList_append, String.toList_append, he]
  simpa using whole

/-- Numbers of a fixed width have digits. -/
private theorem padded_ne (width n : Nat) : Calendar.padded width n ≠ "" := by
  intro empty
  rw [Calendar.padded, String.ofList_eq_empty_iff, List.append_eq_nil_iff] at empty
  exact Nat.toDigits_ne_nil empty.2

/-- Days are words. -/
theorem IsWord.date (d : Date) : IsWord ('%' :: d.toText.toList) := by
  have percent : IsWord ('%' :: "".toList) := .singleton rfl
  have year : IsWord ('%' :: (Calendar.yearText d.year).toList) := by
    have number := undashed_padded 4 d.year.natAbs
    rw [Calendar.yearText]
    split
    · have behind := percent.append_dashed (padded_ne _ _) number
      rwa [String.empty_append] at behind
    · split
      · have plus : Undashed "+" := .of_all rfl
        have sign : IsWord ('%' :: ("" ++ "+").toList) := percent.append_dated plus
        exact sign.append_dated number
      · exact percent.append_dated number
  exact (year.append_dashed (padded_ne _ _) (undashed_padded _ _)).append_dashed (padded_ne _ _)
    (undashed_padded _ _)

/-- Times are words. -/
theorem IsWord.dateTime (t : DateTime) : IsWord ('%' :: t.toText.toList) := by
  have colon : Undashed ":" := .of_all rfl
  have letter : Undashed "T" := .of_all rfl
  exact ((((((((IsWord.date t.date).append_dated letter).append_dated
    (undashed_padded _ _)).append_dated colon).append_dated (undashed_padded _ _)).append_dated
      colon).append_dated (undashed_padded _ _)).append_dated (undashed_fractionText _))

/-! ### Quotes and signs -/

/-- Inside quotes a text is read up to the closing quote, and its escapes are undone. -/
private theorem Lexer.tokens_quoted (said rest : List Char) (plain : '\\' ∉ text) :
    (quoted said).tokens (Quoted.backslash '\'' text ++ '\'' :: rest) =
      .text (String.ofList (said ++ text)) :: between.tokens rest := by
  induction text generalizing said with
  | nil => rw [List.append_nil]; rfl
  | cons c text ih =>
    obtain ⟨hc, others⟩ := not_or.mp (List.mem_cons.not.mp plain)
    have cons : Quoted.backslash '\'' (c :: text) =
      (if c = '\'' then ['\\', '\''] else [c]) ++ Quoted.backslash '\'' text := rfl
    have whole : said ++ c :: text = said ++ [c] ++ text := by simp
    rw [cons, whole, ← ih _ others]
    by_cases quote : c = '\''
    · rw [if_pos quote, quote]
      rfl
    · have step : (quoted said).next c = ([], quoted (said ++ [c])) := by
        rw [next, if_neg quote, if_neg (Ne.symm hc)]
      rw [if_neg quote, List.singleton_append, List.cons_append, tokens, step, List.nil_append]

/-- A text between quotes is read as what it says. -/
theorem Delimits.quoted {text : String} (plain : '\\' ∉ text.toList) :
    Delimits (Quoted.backslashed '\'' text).toList [.text text] := by
  intro rest
  have read := Lexer.tokens_quoted [] rest plain
  rw [List.nil_append, String.ofList_toList] at read
  rw [Quoted.backslashed, String.toList_ofList, List.cons_append, List.append_assoc,
    List.singleton_append]
  exact read

/-- A minus in front of a text. -/
theorem Spells.minus (h : Spells text ts) (parted : Parted text) :
    Spells ('-' :: text) (.sign "-" :: ts) := by
  intro rest breaks
  obtain ⟨c, more, rfl, other⟩ := parted
  have apart : c ≠ '>' := by
    rintro rfl
    cases other
  have step : Lexer.minus.next c = (.sign "-" :: (Lexer.start c).1, (Lexer.start c).2) := by
    rw [Lexer.next, if_neg apart]
  change Lexer.minus.tokens (c :: (more ++ rest)) =
    .sign "-" :: (ts ++ Lexer.between.tokens rest)
  rw [← h rest breaks]
  rw [Lexer.tokens, step]
  rfl

/-- A bar in front of a text. -/
theorem Spells.bar (h : Spells text ts) (parted : Parted text) :
    Spells ('|' :: text) (.sign "|" :: ts) := by
  intro rest breaks
  obtain ⟨c, more, rfl, other⟩ := parted
  have step : (Lexer.relation ['|']).next c =
      (.sign "|" :: (Lexer.start c).1, (Lexer.start c).2) := by
    rw [Lexer.next, if_neg (by rw [other]; decide)]
  change (Lexer.relation ['|']).tokens (c :: (more ++ rest)) =
    .sign "|" :: (ts ++ Lexer.between.tokens rest)
  rw [← h rest breaks]
  rw [Lexer.tokens, step]
  rfl

end FrameQuery.PureText
