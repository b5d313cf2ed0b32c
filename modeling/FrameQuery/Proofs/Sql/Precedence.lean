import FrameQuery.Proofs.Sql.Phrases

/-!
# Operator precedence

SQL expressions are read from left to right. What waits for its right operand stands on a stack; an
operator first takes everything off the stack that binds at least as tightly as itself, so that
operators of one level associate to the left. `LIKE` and `IN` ask more of what stands in front of
them than of each other, so that they do not associate. Parentheses, calls, casts and case
distinctions open a stack of their own.
-/

namespace FrameQuery.Sql

/-- What waits for an operand on its right. -/
inductive Pending where
  | applied (operator : Prefix)
  | combined (operator : Infix) (left : Phrase)
  deriving Repr

namespace Pending

/-- How tightly what waits binds. -/
def level : Pending → Nat
  | applied operator => operator.level
  | combined operator _ => operator.level

/-- What waited, with its operand. -/
def apply (value : Phrase) : Pending → Phrase
  | applied operator => .applied operator value
  | combined operator left => .combined operator left value

/-- Whether `NOT` may stand behind what waits. It is no operand of what binds more tightly. -/
def isLoose : List Pending → Bool
  | [] => true
  | p :: _ => p.level ≤ Prefix.not.level

end Pending

/-- An operand that has been read, how tightly it binds, and what waits in front of it. -/
structure Reading where
  pending : List Pending
  value : Phrase
  strength : Nat
  deriving Repr

/-- Takes off the stack what binds at least as tightly as a level. -/
def settle (level : Nat) : List Pending → Phrase → Nat → Reading
  | [], value, strength => ⟨[], value, strength⟩
  | p :: rest, value, strength =>
    if level ≤ p.level then settle level rest (p.apply value) p.level
    else ⟨p :: rest, value, strength⟩

namespace Reading

/-- A reading in front of something of a level. -/
def settled (level : Nat) (r : Reading) : Reading := settle level r.pending r.value r.strength

/-- What has been read when nothing follows. -/
def closed (r : Reading) : Phrase := (r.settled 0).value

end Reading

/-- What a list of phrases belongs to. -/
inductive Listing where
  | call (function : String) (distinct : Bool)
  | items (value : Phrase)
  deriving Repr

namespace Listing

/-- A list with what it belongs to. -/
def apply (phrases : List Phrase) : Listing → Phrase
  | call function distinct => .call function distinct phrases
  | items value => .within value phrases

/-- How tightly a list with what it belongs to binds. -/
def strength : Listing → Nat
  | call _ _ => closedLevel
  | items _ => memberLevel

end Listing

/-- What is read between two brackets, and what has been read of it. -/
inductive Bracket where
  /-- All of the text. -/
  | whole
  | parens
  | list (listing : Listing) (done : List Phrase)
  | cast
  | condition
  | result (condition : Phrase)
  | otherwise (condition result : Phrase)
  deriving Repr

/-- What has been read last. -/
inductive Position where
  /-- Nothing; an operand has to come. -/
  | start
  | complete (value : Phrase) (strength : Nat)
  /-- `IS`, or `IS NOT`. -/
  | is (present : Bool) (value : Phrase)
  /-- `IN`. -/
  | member (value : Phrase)
  /-- `CAST`. -/
  | conversion
  /-- `AS`, and the words of a type. -/
  | target (value : Phrase) (words : List String)
  /-- `CASE`. -/
  | case
  deriving Repr

/-- What is being read. -/
structure Machine where
  bracket : Bracket
  pending : List Pending
  position : Position
  /-- The brackets around the current one, with what waits in them. -/
  outer : List (Bracket × List Pending)
  deriving Repr

namespace Machine

/-- A machine that has read an operand. -/
def holding (m : Machine) (r : Reading) : Machine :=
  { m with pending := r.pending, position := .complete r.value r.strength }

/-- A machine that reads the next operand. -/
def expecting (m : Machine) (bracket : Bracket) (pending : List Pending) : Machine :=
  { m with bracket, pending, position := .start }

/-- Opens a bracket. -/
def enter (m : Machine) (bracket : Bracket) : Machine :=
  ⟨bracket, [], .start, (m.bracket, m.pending) :: m.outer⟩

/-- Closes a bracket. -/
def leave (m : Machine) (value : Phrase) (strength : Nat) : Option Machine :=
  match m.outer with
  | [] => none
  | (bracket, pending) :: outer => some ⟨bracket, pending, .complete value strength, outer⟩

/-- Reads a token where an operand has to come. -/
def operand (m : Machine) : Token → Option Machine
  | .opening => some (m.enter .parens)
  | .closing =>
    match m.bracket, m.pending with
    | .list (.call function false) [], [] => m.leave (.call function false []) closedLevel
    | _, _ => none
  | .comma | .unterminated => none
  | .word word =>
    match Keyword.ofWord? word with
    | none => some (m.holding ⟨m.pending, .word word, nameLevel⟩)
    | some (.operator .subtract) => some (m.expecting m.bracket (.applied .minus :: m.pending))
    | some .span => some (m.expecting m.bracket (.applied .interval :: m.pending))
    | some .negation =>
      if Pending.isLoose m.pending then some (m.expecting m.bracket (.applied .not :: m.pending))
      else none
    | some .distinct =>
      match m.bracket, m.pending with
      | .list (.call function false) [], [] =>
        some (m.expecting (.list (.call function true) []) [])
      | _, _ => none
    | some .conversion => some { m with position := .conversion }
    | some .case => some { m with position := .case }
    | some _ => none

/-- Reads an operator, or the word that ends a part of a case distinction, behind an operand. -/
def operator (m : Machine) (r : Reading) : Keyword → Option Machine
  | .operator o =>
    let left := r.settled o.level
    if o.demand ≤ left.strength then
      some (m.expecting m.bracket (.combined o left.value :: left.pending))
    else none
  | .is =>
    let left := r.settled nullLevel
    some { m with pending := left.pending, position := .is false left.value }
  | .member =>
    let left := r.settled memberLevel
    if memberLevel < left.strength then
      some { m with pending := left.pending, position := .member left.value }
    else none
  | .target =>
    match m.bracket with
    | .cast => some { m with pending := [], position := .target r.closed [] }
    | _ => none
  | .result =>
    match m.bracket with
    | .condition => some (m.expecting (.result r.closed) [])
    | _ => none
  | .otherwise =>
    match m.bracket with
    | .result condition => some (m.expecting (.otherwise condition r.closed) [])
    | _ => none
  | .caseEnd =>
    match m.bracket with
    | .otherwise condition result => m.leave (.branch condition result r.closed) closedLevel
    | _ => none
  | _ => none

/-- Reads a token behind an operand. -/
def resume (m : Machine) (r : Reading) : Token → Option Machine
  | .opening =>
    match r.value with
    | .word function =>
      if r.strength = nameLevel then some (m.enter (.list (.call function false) [])) else none
    | _ => none
  | .closing =>
    match m.bracket with
    | .parens => m.leave r.closed closedLevel
    | .list listing done => m.leave (listing.apply (done ++ [r.closed])) listing.strength
    | _ => none
  | .comma =>
    match m.bracket with
    | .list listing done => some (m.expecting (.list listing (done ++ [r.closed])) [])
    | _ => none
  | .word word => Keyword.ofWord? word >>= m.operator r
  | .unterminated => none

/-- Reads a token. -/
def step (m : Machine) (t : Token) : Option Machine :=
  match m.position with
  | .start => m.operand t
  | .complete value strength => m.resume ⟨m.pending, value, strength⟩ t
  | .is present value =>
    match t with
    | .word word =>
      match Keyword.ofWord? word with
      | some .negation => if present then none else some { m with position := .is true value }
      | some .null => some (m.holding ⟨m.pending, .nullity present value, nullLevel⟩)
      | _ => none
    | _ => none
  | .member value => if t = .opening then some (m.enter (.list (.items value) [])) else none
  | .conversion => if t = .opening then some (m.enter .cast) else none
  | .target value words =>
    match t with
    | .word word => some { m with position := .target value (words ++ [word]) }
    | .closing => if words.isEmpty then none else m.leave (.cast value words) closedLevel
    | _ => none
  | .case => if t = .word "WHEN" then some (m.enter .condition) else none

/-- Reads tokens. -/
def run (m : Machine) (ts : List Token) : Option Machine := ts.foldlM step m

/-- What has been read when the text ends. -/
def result? (m : Machine) : Option Phrase :=
  match m.bracket, m.position, m.outer with
  | .whole, .complete value strength, [] => some (Reading.closed ⟨m.pending, value, strength⟩)
  | _, _, _ => none

end Machine

/-- The phrase that tokens are read as. -/
def parse (ts : List Token) : Option Phrase :=
  (Machine.run ⟨.whole, [], .start, []⟩ ts).bind (·.result?)

/-- The phrase that a text is read as. -/
def readBack (text : String) : Option Phrase := parse (FrameQuery.tokens text)

end FrameQuery.Sql
