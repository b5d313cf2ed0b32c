import FrameQuery.Proofs.Text.Comments

/-!
# Tokens

SQL text is read token by token. A word is a run of letters, digits, points and quoted regions,
where a number may have a sign in its exponent, or a run of relation signs. Every other operator
sign, every parenthesis and every comma stands for itself; blanks part words and say nothing else.
-/

namespace FrameQuery

/-- What SQL text is made of. -/
inductive Token where
  | word (text : String)
  | opening
  | closing
  | comma
  /-- A quoted region that does not end. -/
  | unterminated
  deriving DecidableEq, Repr

/-- What has been read of a token. -/
inductive Lexer where
  | between
  | word (text : List Char)
  /-- A word inside a quoted region. -/
  | quoted (quote : Char) (text : List Char)
  deriving DecidableEq, Repr

namespace Lexer

/-- Operator signs that stand for themselves. -/
def isSign (c : Char) : Bool := c == '+' || c == '-' || c == '*' || c == '/'

/-- Signs that relations are made of. -/
def isRelation (c : Char) : Bool := c == '<' || c == '>' || c == '='

/-- Characters that start a quoted region. -/
def isQuote (c : Char) : Bool := c == '\'' || c == '"'

/-- Characters behind which no word goes on. -/
def isBreak (c : Char) : Bool := c == ' ' || c == '\n' || c == '(' || c == ')' || c == ','

/-- Whether a word goes on with a character. -/
def belongs (text : List Char) (c : Char) : Bool :=
  match text.head? with
  | none => true
  | some first =>
    if isBreak c || isSign first then false
    else if isRelation first then isRelation c
    else (!isSign c && !isRelation c) || (c == '-' && first.isDigit && text.getLast? == some 'e')

/-- The token that ends with the text. -/
def flush : Lexer → List Token
  | between => []
  | word text => [.word (String.ofList text)]
  | quoted _ _ => [.unterminated]

/-- What a character starts. -/
def start (c : Char) : List Token × Lexer :=
  if c = '(' then ([.opening], between)
  else if c = ')' then ([.closing], between)
  else if c = ',' then ([.comma], between)
  else if isBreak c then ([], between)
  else if isQuote c then ([], quoted c [c])
  else ([], word [c])

/-- The tokens that end before a character, and what is read then. -/
def next : Lexer → Char → List Token × Lexer
  | between, c => start c
  | word text, c =>
    if belongs text c then
      ([], if isQuote c then quoted c (text ++ [c]) else word (text ++ [c]))
    else (.word (String.ofList text) :: (start c).1, (start c).2)
  | quoted quote text, c =>
    ([], if c = quote then word (text ++ [c]) else quoted quote (text ++ [c]))

/-- The tokens of the rest of a text. -/
def tokens : Lexer → List Char → List Token
  | lexer, [] => lexer.flush
  | lexer, c :: rest => (lexer.next c).1 ++ (lexer.next c).2.tokens rest

end Lexer

/-- The tokens of a text. -/
def tokens (text : String) : List Token := Lexer.between.tokens text.toList

/-! ### Composition -/

/-- A text before which a word ends. -/
def Breaks (text : List Char) : Prop := ∀ c ∈ text.head?, Lexer.isBreak c = true

/-- A text of some tokens, before a text that breaks. -/
def Spells (text : List Char) (ts : List Token) : Prop :=
  ∀ rest, Breaks rest → Lexer.between.tokens (text ++ rest) = ts ++ Lexer.between.tokens rest

/-- A text of some tokens that ends with the last of them, whatever follows. -/
def Delimits (text : List Char) (ts : List Token) : Prop :=
  ∀ rest, Lexer.between.tokens (text ++ rest) = ts ++ Lexer.between.tokens rest

variable {first second text : List Char} {ts us : List Token}

/-- A text that breaks, before another one that does, breaks. -/
theorem Breaks.append (hf : Breaks first) (hs : Breaks second) : Breaks (first ++ second) := by
  cases first with
  | nil => exact hs
  | cons c rest => exact hf

/-- A text that ends with its tokens. -/
theorem Delimits.spells (h : Delimits text ts) : Spells text ts := fun rest _ ↦ h rest

/-- Behind a text that ends with its tokens stand the tokens of the next one. -/
theorem Delimits.append_spells (hf : Delimits first ts) (hs : Spells second us) :
    Spells (first ++ second) (ts ++ us) := by
  intro rest breaks
  rw [List.append_assoc, hf, hs rest breaks, List.append_assoc]

/-- Texts that end with their tokens. -/
theorem Delimits.append (hf : Delimits first ts) (hs : Delimits second us) :
    Delimits (first ++ second) (ts ++ us) := by
  intro rest
  rw [List.append_assoc, hf, hs, List.append_assoc]

/-- A text that breaks and ends with its tokens, behind another text. -/
theorem Spells.append_delimits {c : Char} (hf : Spells first ts) (hs : Delimits (c :: second) us)
    (breaks : Lexer.isBreak c = true) : Delimits (first ++ c :: second) (ts ++ us) := by
  intro rest
  have broken : Breaks (c :: (second ++ rest)) := fun _ h ↦ Option.some.inj h ▸ breaks
  rw [List.append_assoc, List.cons_append, hf _ broken, ← List.cons_append, hs, List.append_assoc]

/-- A text is read with its tokens. -/
theorem Spells.tokens {text : String} (h : Spells text.toList ts) : tokens text = ts := by
  have all := h [] (by simp [Breaks])
  rw [List.append_nil] at all
  rw [FrameQuery.tokens, all, Lexer.tokens, Lexer.flush, List.append_nil]

/-! ### Words -/

/-- Before a text that breaks a word ends. -/
theorem Lexer.tokens_word {rest : List Char} (ne : text ≠ []) (breaks : Breaks rest) :
    (word text).tokens rest = .word (String.ofList text) :: between.tokens rest := by
  cases rest with
  | nil => rfl
  | cons c rest =>
    have ends : belongs text c = false := by
      obtain ⟨first, text, rfl⟩ := List.exists_cons_of_ne_nil ne
      have broken : isBreak c = true := breaks c rfl
      simp [belongs, broken]
    have step : (word text).next c =
        (.word (String.ofList text) :: (start c).1, (start c).2) := by simp [next, ends]
    rw [tokens, step]
    rfl

/-- A text that is read as a single word, whatever follows. -/
structure IsWord (text : List Char) : Prop where
  ne : text ≠ []
  reads : ∀ rest, Lexer.between.tokens (text ++ rest) = (Lexer.word text).tokens rest

/-- A word is a token. -/
theorem IsWord.spells {text : String} (h : IsWord text.toList) :
    Spells text.toList [.word text] := by
  intro rest breaks
  rw [h.reads rest, Lexer.tokens_word h.ne breaks, String.ofList_toList]
  rfl

/-- Characters that a word goes on with and that stand for themselves. -/
def Lexer.isPlain (c : Char) : Bool := !isBreak c && !isSign c && !isRelation c && !isQuote c

/-- Whether a character starts a word of letters, digits and quoted regions. -/
def Lexer.isOrdinary (c : Char) : Bool := !isSign c && !isRelation c

namespace Lexer

variable {first c : Char} {text rest : List Char}

/-- Plain characters start ordinary words. -/
theorem isOrdinary_of_isPlain (h : isPlain c = true) : isOrdinary c = true := by
  simp only [isPlain, Bool.and_eq_true, Bool.not_eq_true'] at h
  simp [isOrdinary, h]

/-- An ordinary word goes on with a character that is neither a break nor a sign. -/
theorem belongs_of_ordinary (hf : isOrdinary first = true) (hb : isBreak c = false)
    (hc : isOrdinary c = true) : belongs (first :: text) c = true := by
  simp only [isOrdinary, Bool.and_eq_true, Bool.not_eq_true'] at hf hc
  simp [belongs, hf, hb, hc]

/-- An ordinary word goes on with plain characters. -/
theorem tokens_plain {more : List Char} (hf : isOrdinary first = true)
    (h : ∀ c ∈ more, isPlain c = true) :
    (word (first :: text)).tokens (more ++ rest) =
      (word (first :: (text ++ more))).tokens rest := by
  induction more generalizing text with
  | nil => rw [List.nil_append, List.append_nil]
  | cons c more ih =>
    obtain ⟨hc, hmore⟩ := List.forall_mem_cons.mp h
    simp only [isPlain, Bool.and_eq_true, Bool.not_eq_true'] at hc
    have goes : belongs (first :: text) c = true :=
      belongs_of_ordinary hf hc.1.1.1 (by simp [isOrdinary, hc])
    have step : (word (first :: text)).next c = ([], word (first :: (text ++ [c]))) := by
      simp [next, goes, hc]
    rw [List.cons_append, tokens, step, List.nil_append, ih hmore, List.append_assoc]
    rfl

/-- Inside quotes a word goes on to the closing quote; a quote that is doubled closes a region and
opens the next one. -/
theorem tokens_quoted {quote : Char} (hq : isQuote quote = true) (hf : isOrdinary first = true)
    (content : List Char) :
    (quoted quote (first :: text)).tokens (Quoted.double quote content ++ quote :: rest) =
      (word (first :: (text ++ (Quoted.double quote content ++ [quote])))).tokens rest := by
  have plain : isBreak quote = false ∧ isOrdinary quote = true := by
    simp only [isQuote, Bool.or_eq_true, beq_iff_eq] at hq
    rcases hq with rfl | rfl <;> decide
  induction content generalizing text with
  | nil =>
    have step : (quoted quote (first :: text)).next quote =
        ([], word (first :: (text ++ [quote]))) := by simp [next]
    rw [Quoted.double, List.flatMap_nil, List.nil_append, tokens, step]
    rfl
  | cons c content ih =>
    have double : Quoted.double quote (c :: content) =
      (if c = quote then [quote, quote] else [c]) ++ Quoted.double quote content := rfl
    rw [double]
    by_cases hc : c = quote
    · have goes : belongs (first :: (text ++ [quote])) quote = true :=
        belongs_of_ordinary hf plain.1 plain.2
      have closed : (quoted quote (first :: text)).next quote =
          ([], word (first :: (text ++ [quote]))) := by simp [next]
      have opened : (word (first :: (text ++ [quote]))).next quote =
          ([], quoted quote (first :: (text ++ [quote] ++ [quote]))) := by
        simp [next, goes, hq]
      rw [if_pos hc]
      change (quoted quote (first :: text)).tokens
        (quote :: quote :: (Quoted.double quote content ++ quote :: rest)) = _
      rw [tokens, closed, List.nil_append, tokens, opened, List.nil_append, ih]
      simp
    · have step : (quoted quote (first :: text)).next c =
          ([], quoted quote (first :: (text ++ [c]))) := by simp [next, hc]
      rw [if_neg hc, List.cons_append, List.nil_append, List.cons_append, tokens, step,
        List.nil_append, ih]
      simp

end Lexer

open Lexer (isPlain isOrdinary isQuote)

/-- A text of plain characters is a word. -/
theorem IsWord.of_plain (ne : text ≠ []) (h : ∀ c ∈ text, isPlain c = true) : IsWord text := by
  obtain ⟨c, text, rfl⟩ := List.exists_cons_of_ne_nil ne
  refine ⟨ne, fun rest ↦ ?_⟩
  obtain ⟨hc, hrest⟩ := List.forall_mem_cons.mp h
  simp only [isPlain, Bool.and_eq_true, Bool.not_eq_true'] at hc
  have step : Lexer.between.next c = ([], .word [c]) := by
    have hb := hc.1.1.1
    have apart : c ≠ '(' ∧ c ≠ ')' ∧ c ≠ ',' := by
      refine ⟨?_, ?_, ?_⟩ <;> (rintro rfl; cases hb)
    simp [Lexer.next, Lexer.start, apart, hc]
  rw [List.cons_append, Lexer.tokens, step, List.nil_append,
    Lexer.tokens_plain (by simp [isOrdinary, hc]) hrest]
  rfl

/-- A text between quotes is a word. -/
theorem IsWord.doubled {quote : Char} (hq : isQuote quote = true) (content : String) :
    IsWord (Quoted.doubled quote content).toList := by
  have plain : isOrdinary quote = true ∧
      Lexer.between.next quote = ([], .quoted quote [quote]) := by
    simp only [isQuote, Bool.or_eq_true, beq_iff_eq] at hq
    rcases hq with rfl | rfl <;> exact ⟨rfl, rfl⟩
  rw [Quoted.doubled, String.toList_ofList]
  refine ⟨List.cons_ne_nil _ _, fun rest ↦ ?_⟩
  rw [List.cons_append, Lexer.tokens, plain.2, List.nil_append, List.append_assoc,
    List.singleton_append, Lexer.tokens_quoted hq plain.1, List.nil_append]

/-- An ordinary word goes on with plain characters. -/
theorem IsWord.append_plain {c : Char} {more : List Char} (h : IsWord (c :: text))
    (hc : isOrdinary c = true) (plain : ∀ c ∈ more, isPlain c = true) :
    IsWord (c :: (text ++ more)) where
  ne := List.cons_ne_nil _ _
  reads rest := by
    have all := h.reads (more ++ rest)
    rwa [Lexer.tokens_plain hc plain, ← List.append_assoc] at all

/-- An ordinary word goes on with a text between quotes. -/
theorem IsWord.append_doubled {c quote : Char} (h : IsWord (c :: text)) (hc : isOrdinary c = true)
    (hq : isQuote quote = true) (content : String) :
    IsWord (c :: (text ++ (Quoted.doubled quote content).toList)) := by
  rw [Quoted.doubled, String.toList_ofList]
  refine ⟨List.cons_ne_nil _ _, fun rest ↦ ?_⟩
  have plain : Lexer.isBreak quote = false ∧ isOrdinary quote = true := by
    simp only [isQuote, Bool.or_eq_true, beq_iff_eq] at hq
    rcases hq with rfl | rfl <;> decide
  have goes : Lexer.belongs (c :: text) quote = true :=
    Lexer.belongs_of_ordinary hc plain.1 plain.2
  have step : (Lexer.word (c :: text)).next quote =
      ([], .quoted quote (c :: (text ++ [quote]))) := by simp [Lexer.next, goes, hq]
  have all := h.reads (quote :: (Quoted.double quote content.toList ++ quote :: rest))
  rw [Lexer.tokens, step, List.nil_append, Lexer.tokens_quoted hq hc] at all
  simpa using all

/-- A column with the name of what it belongs to, both between double quotes, is a word. -/
theorem IsWord.qualified (qualifier column : String) :
    IsWord ((Quoted.doubled '"' qualifier).toList ++
      '.' :: (Quoted.doubled '"' column).toList) := by
  have first : IsWord (Quoted.doubled '"' qualifier).toList := .doubled rfl qualifier
  have opening : ∃ text, (Quoted.doubled '"' qualifier).toList = '"' :: text := by
    rw [Quoted.doubled, String.toList_ofList]
    exact ⟨_, rfl⟩
  obtain ⟨text, he⟩ := opening
  rw [he] at first ⊢
  have point : IsWord ('"' :: (text ++ ['.'])) := first.append_plain rfl (List.all_eq_true.mp rfl)
  have both : IsWord ('"' :: (text ++ ['.'] ++ (Quoted.doubled '"' column).toList)) :=
    point.append_doubled rfl rfl column
  rwa [List.append_assoc] at both

/-! ### Numbers -/

/-- Digits are plain. -/
private theorem Lexer.isPlain_of_isDigit {c : Char} (h : c.isDigit = true) : isPlain c = true := by
  have other : ∀ s : Char, s.isDigit = false → c ≠ s := by
    rintro s hs rfl
    rw [h] at hs
    cases hs
  simp [isPlain, isBreak, isSign, isRelation, isQuote, other]

/-- Digits and points are plain. -/
private theorem Mantissa.plain (h : Mantissa text) : ∀ c ∈ text, isPlain c = true := by
  intro c hc
  rcases h.all c hc with hd | rfl
  · exact Lexer.isPlain_of_isDigit hd
  · rfl

/-- A number goes on with the sign of its exponent. -/
private theorem IsWord.append_exponentSign {c : Char} (h : IsWord (c :: (text ++ ['e'])))
    (hc : c.isDigit = true) : IsWord (c :: (text ++ ['e'] ++ ['-'])) where
  ne := List.cons_ne_nil _ _
  reads rest := by
    have ordinary : Lexer.isSign c = false ∧ Lexer.isRelation c = false := by
      simpa [isOrdinary] using Lexer.isOrdinary_of_isPlain (Lexer.isPlain_of_isDigit hc)
    have last : (c :: (text ++ ['e'])).getLast? = some 'e' := by
      rw [← List.cons_append, List.getLast?_concat]
    have goes : Lexer.belongs (c :: (text ++ ['e'])) '-' = true := by
      have sign : Lexer.isBreak '-' = false := rfl
      simp [Lexer.belongs, ordinary, sign, hc, last]
    have step : (Lexer.word (c :: (text ++ ['e']))).next '-' =
        ([], .word (c :: (text ++ ['e'] ++ ['-']))) := by
      simp [Lexer.next, goes, isQuote]
    have all := h.reads ('-' :: rest)
    rw [Lexer.tokens, step, List.nil_append] at all
    simpa using all

/-- Magnitudes of numbers are words. -/
theorem Magnitude.isWord (h : Magnitude text) : IsWord text := by
  cases h with
  | infinite | noNumber => exact .of_plain nofun (List.all_eq_true.mp rfl)
  | positional h =>
    obtain ⟨c, rest, rfl, -⟩ := h.head
    exact .of_plain (List.cons_ne_nil _ _) h.plain
  | @scaled text power negative ht hp =>
    obtain ⟨c, rest, rfl, hc⟩ := ht.head
    have ordinary : isOrdinary c = true :=
      Lexer.isOrdinary_of_isPlain (ht.plain c List.mem_cons_self)
    have letter : IsWord (c :: (rest ++ ['e'])) := by
      refine .of_plain (List.cons_ne_nil _ _) fun b hb ↦ ?_
      rw [← List.cons_append] at hb
      rcases List.mem_append.mp hb with hb | hb
      · exact ht.plain b hb
      · rw [List.mem_singleton.mp hb]
        rfl
    have signed : IsWord (c :: (rest ++ ['e'] ++ minus negative)) := by
      cases negative with
      | false => simpa [minus] using letter
      | true => exact letter.append_exponentSign hc
    have all := signed.append_plain ordinary hp.plain
    simpa using all

/-! ### Documents -/

namespace Doc

/-- A document of some tokens, before a text that breaks. -/
def Spells (layout : Layout) (doc : Doc) (ts : List Token) : Prop :=
  FrameQuery.Spells (layout.chars doc) ts

/-- A document of some tokens that ends with the last of them, whatever follows. -/
def Delimits (layout : Layout) (doc : Doc) (ts : List Token) : Prop :=
  FrameQuery.Delimits (layout.chars doc) ts

variable {layout : Layout} {doc first second : Doc}

/-- The same tokens. -/
theorem Spells.of_eq (h : Spells layout doc ts) (he : ts = us) : Spells layout doc us := he ▸ h

/-- The same tokens. -/
theorem Delimits.of_eq (h : Delimits layout doc ts) (he : ts = us) : Delimits layout doc us :=
  he ▸ h

/-- A document that ends with its tokens. -/
theorem Delimits.spells (h : Delimits layout doc ts) : Spells layout doc ts :=
  FrameQuery.Delimits.spells h

/-- A text that ends with its tokens. -/
theorem Delimits.of_text (text : String) (ts : List Token)
    (h : FrameQuery.Delimits text.toList ts) : Delimits layout (Doc.text text) ts := by
  rwa [Delimits, Layout.chars_text]

/-- A word. -/
theorem Spells.word {text : String} (h : IsWord text.toList) :
    Spells layout (Doc.text text) [.word text] := by
  rw [Spells, Layout.chars_text]
  exact h.spells

/-- Behind a document that ends with its tokens stand the tokens of the next one. -/
theorem Delimits.before (hf : Delimits layout first ts) (hs : Spells layout second us) :
    Spells layout (first ++ second) (ts ++ us) := by
  rw [Spells, Layout.chars_append]
  exact FrameQuery.Delimits.append_spells hf hs

/-- Documents that end with their tokens. -/
theorem Delimits.append (hf : Delimits layout first ts) (hs : Delimits layout second us) :
    Delimits layout (first ++ second) (ts ++ us) := by
  rw [Delimits, Layout.chars_append]
  exact FrameQuery.Delimits.append hf hs

/-- A text that breaks and ends with its tokens, behind a document. -/
theorem Spells.before (h : Spells layout doc ts) (text : String) (us : List Token)
    (breaks : text.toList.head?.any Lexer.isBreak = true)
    (hs : FrameQuery.Delimits text.toList us) :
    Delimits layout (doc ++ Doc.text text) (ts ++ us) := by
  rw [Delimits, Layout.chars_append, Layout.chars_text]
  cases he : text.toList with
  | nil => simp [he] at breaks
  | cons c rest =>
    rw [he] at breaks hs
    exact FrameQuery.Spells.append_delimits h hs (by simpa using breaks)

/-- A document that breaks, behind another one. -/
theorem Spells.follow (hf : Spells layout first ts) (hs : Spells layout second us)
    (breaks : (layout.chars second).head?.any Lexer.isBreak = true) :
    Spells layout (first ++ second) (ts ++ us) := by
  intro rest hr
  have broken : Breaks (layout.chars second ++ rest) := by
    refine .append (fun c hc ↦ ?_) hr
    rw [Option.mem_def.mp hc] at breaks
    exact breaks
  rw [Layout.chars_append, List.append_assoc, hf _ broken, hs rest hr, List.append_assoc]

/-- A blank ends a document. -/
theorem Spells.blank (h : Spells layout doc ts) : Delimits layout (doc ++ Doc.text " ") ts :=
  (h.before " " [] rfl fun _ ↦ rfl).of_eq (List.append_nil ts)

end Doc

end FrameQuery
