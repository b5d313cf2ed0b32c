import FrameQuery.Text.Doc

/-!
# Outer parentheses

A document written `(…)` loses that pair when its first parenthesis is closed by its last one and
by no earlier one. Parentheses inside quoted regions can be left out of the count: the caller
names the characters that open such a region, and each region ends at the next occurrence of the
character that opened it, so that a doubled quote closes a region and opens the next.
-/

namespace FrameQuery.Doc

/-- Reads on from inside the first parenthesis, or from its start: `depth` parentheses are open
and `quote` is the character that opened the quoted region the reader stands in. True when the
text ends with none open, outside quotes, and no parenthesis before the last glyph closed the
outermost one. -/
def enclosed (quotes : List Char) : Doc → Nat → Option Char → Bool
  | [], depth, quote => depth == 0 && quote.isNone
  | .char c :: rest, depth, some q =>
    enclosed quotes rest depth (if c = q then none else some q)
  | .char c :: rest, depth, none =>
    if quotes.contains c then enclosed quotes rest depth (some c)
    else if c = '(' then enclosed quotes rest (depth + 1) none
    else if c = ')' then
      if depth - 1 = 0 ∧ rest ≠ [] then false else enclosed quotes rest (depth - 1) none
    else enclosed quotes rest depth none
  | .gap _ :: rest, depth, quote => enclosed quotes rest depth quote
  | .seam _ :: rest, depth, quote => enclosed quotes rest depth quote

/-- Whether the first glyph is a parenthesis that the last glyph closes. -/
def hasOuterParens (quotes : List Char) (doc : Doc) : Bool :=
  doc.head? == some (.char '(') && doc.getLast? == some (.char ')') && enclosed quotes doc 0 none

/-- Drops one pair of parentheses when it encloses the whole document. -/
def stripOuterParens (quotes : List Char) (doc : Doc) : Doc :=
  if hasOuterParens quotes doc then doc.tail.dropLast else doc

end FrameQuery.Doc
