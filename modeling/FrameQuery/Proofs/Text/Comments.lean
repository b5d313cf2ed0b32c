import FrameQuery.Proofs.Number.Texts
import FrameQuery.Proofs.Text.Documents
import FrameQuery.Proofs.Text.Quoting
import FrameQuery.Sql.Clause

/-!
# Where comments open

Two dashes in a row open a comment unless they stand between quotes. A reader of the text knows at
each character whether it is in a comment, between quotes, or behind a dash. Almost every part of a
statement is calm: it takes a reader from outside quotes to outside quotes again. So a statement
opens a comment exactly if one of its parts does.
-/

namespace FrameQuery

/-- Where a reader of SQL text stands. -/
inductive Reader where
  /-- Outside quotes. -/
  | plain
  /-- Outside quotes, behind a dash. -/
  | dash
  /-- Behind an opening quote. -/
  | quoted (quote : Char)
  | comment
  deriving DecidableEq, Repr

namespace Reader

/-- What a character leads to outside quotes and not behind a dash. -/
def start (c : Char) : Reader :=
  if c = '-' then .dash else if c = '\'' ∨ c = '"' then .quoted c else .plain

/-- What a character leads to. -/
def next : Reader → Char → Reader
  | .plain, c => start c
  | .dash, c => if c = '-' then .comment else start c
  | .quoted quote, c => if c = quote then .plain else .quoted quote
  | .comment, _ => .comment

/-- What a text leads to. -/
def run (reader : Reader) (text : List Char) : Reader := text.foldl next reader

/-- Texts are read one after the other. -/
theorem run_append (reader : Reader) (first second : List Char) :
    reader.run (first ++ second) = (reader.run first).run second :=
  List.foldl_append

/-- A comment does not end. -/
@[simp] theorem run_comment (text : List Char) : comment.run text = .comment := by
  induction text with
  | nil => rfl
  | cons c text ih => exact ih

end Reader

/-- Whether a text opens a comment. -/
def opensComment (text : String) : Bool := Reader.plain.run text.toList == .comment

/-- A text that leads a reader from outside quotes to outside quotes. -/
def Calm (text : List Char) : Prop := Reader.plain.run text = .plain

/-- A text that leads a reader to outside quotes behind a dash as well. -/
structure Unsigned (text : List Char) : Prop where
  calm : Calm text
  behind_dash : Reader.dash.run text = .plain

namespace Calm

/-- Nothing is calm. -/
theorem nil : Calm [] := rfl

/-- Calm texts one after the other are calm. -/
theorem append {first second : List Char} (hf : Calm first) (hs : Calm second) :
    Calm (first ++ second) := by
  rw [Calm, Reader.run_append, hf]
  exact hs

/-- A text without dashes and quotes is calm. -/
theorem of_plain {text : List Char} (h : ∀ c ∈ text, c ≠ '-' ∧ c ≠ '\'' ∧ c ≠ '"') : Calm text := by
  induction text with
  | nil => exact nil
  | cons c text ih =>
    obtain ⟨⟨dash, single, double⟩, rest⟩ := List.forall_mem_cons.mp h
    have first : Reader.start c = .plain := by simp [Reader.start, dash, single, double]
    change (Reader.start c).run text = .plain
    rw [first]
    exact ih rest

/-- Blanks are calm. -/
theorem blanks (n : Nat) : Calm (List.replicate n ' ') := by
  refine of_plain fun c hc ↦ ?_
  rw [List.eq_of_mem_replicate hc]
  decide

/-- Between quotes a reader stays between quotes or stands, behind a quote that is doubled, between
quotes again. -/
private theorem run_double (quote : Char) (hq : Reader.start quote = .quoted quote)
    (text : List Char) :
    (Reader.quoted quote).run (Quoted.double quote text) = .quoted quote := by
  induction text with
  | nil => rfl
  | cons c text ih =>
    have step : (Reader.quoted quote).run (if c = quote then [quote, quote] else [c]) =
        .quoted quote := by
      split
      · change ((Reader.quoted quote).next quote).next quote = _
        simpa [Reader.next] using hq
      · next hc => simp [Reader.run, Reader.next, hc]
    change (Reader.quoted quote).run ((if c = quote then [quote, quote] else [c]) ++
      Quoted.double quote text) = _
    rw [Reader.run_append, step, ih]

/-- A text between quotes is calm. -/
theorem doubled {quote : Char} (hq : quote = '\'' ∨ quote = '"') (text : String) :
    Calm (Quoted.doubled quote text).toList := by
  have opening : Reader.start quote = .quoted quote := by rcases hq with rfl | rfl <;> rfl
  rw [Calm, Quoted.doubled, String.toList_ofList]
  change (Reader.start quote).run (Quoted.double quote text.toList ++ [quote]) = .plain
  rw [opening, Reader.run_append, run_double quote opening]
  simp [Reader.run, Reader.next]

/-- A text between quotes that holds no such quote is calm. -/
theorem between {quote : Char} (hq : quote = '\'' ∨ quote = '"') {text : List Char}
    (h : quote ∉ text) : Calm (quote :: (text ++ [quote])) := by
  have doubled := doubled hq (String.ofList text)
  rwa [Quoted.doubled, String.toList_ofList, String.toList_ofList,
    Quoted.double_of_not_mem h] at doubled

end Calm

/-! ### Numbers -/

/-- A text that does not begin with a dash is read behind a dash as it is read elsewhere. -/
theorem Unsigned.of_cons {c : Char} {text : List Char} (hc : c ≠ '-')
    (calm : Calm (c :: text)) : Unsigned (c :: text) where
  calm := calm
  behind_dash := by
    have same : Reader.dash.next c = Reader.plain.next c := if_neg hc
    exact (congrArg (Reader.run · text) same).trans calm

/-- Digits are neither dashes nor quotes. -/
private theorem plain_of_isDigit {c : Char} (h : c.isDigit = true) :
    c ≠ '-' ∧ c ≠ '\'' ∧ c ≠ '"' := by
  refine ⟨?_, ?_, ?_⟩ <;>
  · rintro rfl
    exact absurd h (by decide)

/-- Digits and points are unsigned. -/
theorem Mantissa.unsigned {text : List Char} (h : Mantissa text) : Unsigned text := by
  have calm : Calm text := by
    refine .of_plain fun c hc ↦ ?_
    rcases h.all c hc with hd | rfl
    · exact plain_of_isDigit hd
    · decide
  obtain ⟨c, rest, rfl, hc⟩ := h.head
  exact .of_cons (plain_of_isDigit hc).1 calm

/-- A sign before an unsigned text is calm. -/
theorem Unsigned.signed {text : List Char} (h : Unsigned text) (negative : Bool) :
    Calm (minus negative ++ text) := by
  cases negative with
  | false => exact h.calm
  | true => exact h.behind_dash

/-- Behind a dash, a sign before an unsigned text opens a comment. -/
theorem Unsigned.run_dash {text : List Char} (h : Unsigned text) (negative : Bool) :
    Reader.dash.run (minus negative ++ text) = if negative then .comment else .plain := by
  cases negative with
  | false => exact h.behind_dash
  | true => exact Reader.run_comment text

/-- Magnitudes are unsigned. -/
theorem Magnitude.unsigned {text : List Char} (h : Magnitude text) : Unsigned text := by
  cases h with
  | infinite => exact ⟨rfl, rfl⟩
  | noNumber => exact ⟨rfl, rfl⟩
  | positional h => exact h.unsigned
  | @scaled text power negative ht hp =>
    have calm : Calm (text ++ 'e' :: (minus negative ++ power)) :=
      ht.unsigned.calm.append (hp.unsigned.signed negative)
    obtain ⟨c, rest, rfl, hc⟩ := ht.head
    exact .of_cons (plain_of_isDigit hc).1 calm

/-! ### Documents -/

namespace Layout

variable {layout : Layout}

/-- A new line is calm. -/
theorem calm_newline (depth : Nat) : Calm (layout.newline depth) := by
  change Calm (['\n'] ++ _)
  exact .append rfl (.blanks _)

end Layout

namespace Doc

/-- Behind a document a reader that stood outside quotes is in a comment if the document opens one,
and outside quotes otherwise. -/
def Reads (layout : Layout) (doc : Doc) (opens : Bool) : Prop :=
  Reader.plain.run (layout.chars doc) = if opens then .comment else .plain

namespace Reads

variable {layout : Layout} {doc first second : Doc} {p q : Bool}

/-- Reading the same. -/
theorem of_eq (h : Reads layout doc p) (he : p = q) : Reads layout doc q := he ▸ h

/-- Nothing opens no comment. -/
theorem nil : Reads layout [] false := rfl

/-- A document opens a comment if one of its two parts does. -/
theorem append (hf : Reads layout first p) (hs : Reads layout second q) :
    Reads layout (first ++ second) (p || q) := by
  rw [Reads, Layout.chars_append, Reader.run_append, hf]
  cases p with
  | true => simp
  | false => exact hs

/-- A document opens no comment before another one. -/
theorem before (hf : Reads layout first false) (hs : Reads layout second q) :
    Reads layout (first ++ second) q :=
  (hf.append hs).of_eq (Bool.false_or q)

/-- A document opens no comment behind another one. -/
theorem behind (hf : Reads layout first p) (hs : Reads layout second false) :
    Reads layout (first ++ second) p :=
  (hf.append hs).of_eq (Bool.or_false p)

/-- A calm text opens no comment. -/
theorem text (text : String) (h : Calm text.toList) : Reads layout (Doc.text text) false := by
  rw [Reads, Layout.chars_text]
  exact h

/-- A break between tokens opens no comment. -/
theorem gap (depth : Nat) : Reads layout (Doc.gap depth) false := by
  rw [Reads, Doc.gap, Layout.chars, List.flatMap_singleton, Layout.write]
  split
  · exact Layout.calm_newline depth
  · rfl

/-- A break next to a bracket opens no comment. -/
theorem seam (depth : Nat) : Reads layout (Doc.seam depth) false := by
  rw [Reads, Doc.seam, Layout.chars, List.flatMap_singleton, Layout.write]
  split
  · exact Layout.calm_newline depth
  · rfl

/-- A document between two texts. -/
theorem between (before after : String) (hb : Calm before.toList) (h : Reads layout doc p)
    (ha : Calm after.toList) : Reads layout (Doc.text before ++ doc ++ Doc.text after) p :=
  ((text before hb).before h).behind (text after ha)

/-- Documents with a separator between them open a comment if one of them does. -/
theorem sepBy {α : Type} {separator : Doc} {opens : α → Bool} {parts : List α} {docs : List Doc}
    (hs : Reads layout separator false)
    (h : List.Forall₂ (fun a doc ↦ Reads layout doc (opens a)) parts docs) :
    Reads layout (Doc.sepBy separator docs) (parts.any opens) :=
  sepBy_flagged opens nil append hs h

end Reads

end Doc

end FrameQuery
