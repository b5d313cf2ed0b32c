import FrameQuery.Proofs.Pure.Tokens

/-!
# Reading PURE

Tokens of PURE are read from left to right as terms. What stands behind an arrow or a point belongs
to the operand directly in front of it, so that both bind more tightly than a minus in front of the
operand, which binds more tightly than any operator between two operands. How tightly two operators
between operands bind is left open: two of them may not stand next to each other without
parentheses.
-/

namespace FrameQuery.PureText

/-- A PURE expression as its text shows it. -/
inductive Term where
  /-- A number, a date, a variable or a name. -/
  | word (spelling : String)
  | text (content : String)
  | negative (value : Term)
  /-- A part of a value, by its name. -/
  | member (value : Term) (name : String)
  | call (function : String) (arguments : List Term)
  | arrow (receiver : Term) (function : String) (arguments : List Term)
  | operation (symbol : String) (left right : Term)
  | list (items : List Term)
  /-- A branch of a case distinction. -/
  | branch (value : Term)
  deriving Repr

/-- A value behind some minus signs. -/
def negated : Nat → Term → Term
  | 0, value => value
  | n + 1, value => .negative (negated n value)

/-- Minus signs add up. -/
theorem negated_add (m n : Nat) (value : Term) :
    negated (m + n) value = negated m (negated n value) := by
  induction m with
  | zero => rw [Nat.zero_add, negated]
  | succ m ih => rw [Nat.succ_add, negated, ih, negated]

/-! ### The reader -/

/-- What waits for an operand on its right. -/
structure Pending where
  /-- Whether the operand is in a branch. -/
  branched : Bool
  /-- An operator and its left operand. -/
  left : Option (Term × String)
  /-- The number of minus signs. -/
  signs : Nat
  deriving Repr

namespace Pending

/-- Nothing waits. -/
def none : Pending := ⟨false, .none, 0⟩

/-- Some more minus signs wait. -/
def signed (pending : Pending) (n : Nat) : Pending := { pending with signs := pending.signs + n }

/-- What waited, with its operand. -/
def close (pending : Pending) (value : Term) : Term :=
  let signed := negated pending.signs value
  let combined := match pending.left with
    | .none => signed
    | some (left, symbol) => .operation symbol left signed
  if pending.branched then .branch combined else combined

end Pending

/-- What a list of terms belongs to. -/
inductive Listing where
  | call (function : String)
  | arrow (receiver : Term) (function : String)
  | items
  deriving Repr

namespace Listing

/-- A list with what it belongs to. -/
def apply (terms : List Term) : Listing → Term
  | call function => .call function terms
  | arrow receiver function => .arrow receiver function terms
  | items => .list terms

/-- The bracket that ends a list. -/
def closing : Listing → Token
  | items => .closingList
  | _ => .closing

end Listing

/-- What is read between two brackets, and what has been read of it. -/
inductive Bracket where
  /-- All of the text. -/
  | whole
  | parens
  | list (listing : Listing) (done : List Term)
  deriving Repr

/-- What has been read last. -/
inductive Position where
  /-- Nothing; an operand has to come. -/
  | start
  | complete (value : Term)
  /-- A point; a name has to come. -/
  | point (value : Term)
  /-- An arrow; a call has to come. -/
  | arrow (value : Term)
  deriving Repr

/-- What is being read. -/
structure Machine where
  bracket : Bracket
  pending : Pending
  position : Position
  /-- The brackets around the current one, with what waits in them. -/
  outer : List (Bracket × Pending)
  deriving Repr

/-- Operators between two operands. -/
def infixes : List String :=
  ["+", "-", "*", "/", "==", "!=", "<", "<=", ">", ">=", "&&", "||"]

namespace Machine

/-- Opens a bracket. -/
def enter (m : Machine) (bracket : Bracket) : Machine :=
  ⟨bracket, .none, .start, (m.bracket, m.pending) :: m.outer⟩

/-- Closes a bracket. -/
def leave (m : Machine) (value : Term) : Option Machine :=
  match m.outer with
  | [] => none
  | (bracket, pending) :: outer => some ⟨bracket, pending, .complete value, outer⟩

/-- A machine that has read an operand. -/
def holding (m : Machine) (value : Term) : Machine := { m with position := .complete value }

/-- Reads a token where an operand has to come. -/
def operand (m : Machine) : Token → Option Machine
  | .word text => some (m.holding (.word text))
  | .text content => some (m.holding (.text content))
  | .function name => some (m.enter (.list (.call name) []))
  | .opening => some (m.enter .parens)
  | .openingList => some (m.enter (.list .items []))
  | .sign symbol =>
    if symbol = "-" then some { m with pending := m.pending.signed 1 }
    else
      match m.pending with
      | ⟨false, .none, 0⟩ =>
        if symbol = "|" then some { m with pending := ⟨true, .none, 0⟩ } else none
      | _ => none
  | token =>
    match m.bracket, m.pending with
    | .list listing [], ⟨false, .none, 0⟩ =>
      if token = listing.closing then m.leave (listing.apply []) else none
    | _, _ => none

/-- Reads a token behind an operand. -/
def resume (m : Machine) (value : Term) : Token → Option Machine
  | .point => some { m with position := .point value }
  | .arrow => some { m with position := .arrow value }
  | .sign symbol =>
    match m.pending with
    | ⟨branched, .none, signs⟩ =>
      if symbol ∈ infixes then
        some { m with
          pending := ⟨branched, some (negated signs value, symbol), 0⟩, position := .start }
      else none
    | _ => none
  | .comma =>
    match m.bracket with
    | .list listing done =>
      some ⟨.list listing (done ++ [m.pending.close value]), .none, .start, m.outer⟩
    | _ => none
  | token =>
    match m.bracket with
    | .whole => none
    | .parens => if token = .closing then m.leave (m.pending.close value) else none
    | .list listing done =>
      if token = listing.closing then m.leave (listing.apply (done ++ [m.pending.close value]))
      else none

/-- Reads a token. -/
def step (m : Machine) (t : Token) : Option Machine :=
  match m.position with
  | .start => m.operand t
  | .complete value => m.resume value t
  | .point value =>
    match t with
    | .word name | .text name => some (m.holding (.member value name))
    | _ => none
  | .arrow value =>
    match t with
    | .function name => some (m.enter (.list (.arrow value name) []))
    | _ => none

/-- Reads tokens. -/
def run (m : Machine) (ts : List Token) : Option Machine := ts.foldlM step m

/-- What has been read when the text ends. -/
def result? (m : Machine) : Option Term :=
  match m.bracket, m.position, m.outer with
  | .whole, .complete value, [] => some (m.pending.close value)
  | _, _, _ => none

end Machine

/-- The machine that has read nothing. -/
def Machine.initial : Machine := ⟨.whole, .none, .start, []⟩

/-- The term that a text is read as. -/
def readBack (text : String) : Option Term :=
  (Machine.initial.run (tokens text)).bind (·.result?)

/-- A text that is read as a single operand, with no sign in front of it and no operator in it that
stands outside brackets. -/
def StandsAlone (text : String) : Prop :=
  ∃ value, Machine.initial.run (tokens text) = some (Machine.initial.holding value)

/-! ### What is read -/

namespace Term

/-- The number of minus signs that are read in front of a term. -/
def signs : Term → Nat
  | negative value => value.signs + 1
  | member value _ => value.signs
  | arrow receiver _ _ => receiver.signs
  | word _ | text _ | call _ _ | operation _ _ _ | list _ | branch _ => 0

mutual

/-- What is read behind these signs. -/
def core : Term → Term
  | word spelling => word spelling
  | text content => text content
  | negative value => value.core
  | member value name => member value.core name
  | call function arguments => call function (allRead arguments)
  | arrow receiver function arguments => arrow receiver.core function (allRead arguments)
  | operation symbol left right =>
    operation symbol (negated left.signs left.core) (negated right.signs right.core)
  | list items => list (allRead items)
  | branch value => branch (negated value.signs value.core)

/-- What is read of some terms. -/
def allRead : List Term → List Term
  | [] => []
  | term :: rest => negated term.signs term.core :: allRead rest

end

/-- What is read of a term. -/
def read (term : Term) : Term := negated term.signs term.core

/-- Terms are read one by one. -/
theorem allRead_eq (terms : List Term) : allRead terms = terms.map read := by
  induction terms with
  | nil => rfl
  | cons term rest ih => rw [allRead, ih, List.map_cons, read]

/-- Whether a term has a sign in front of it. -/
def isNegative : Term → Bool
  | negative _ => true
  | _ => false

mutual

/-- Whether no receiver of a call and no value with a member has a sign in front of it. -/
def isFirm : Term → Bool
  | word _ | text _ => true
  | negative value | branch value => value.isFirm
  | member value _ => !value.isNegative && value.isFirm
  | call _ arguments => allFirm arguments
  | arrow receiver _ arguments =>
    (!receiver.isNegative && receiver.isFirm) && allFirm arguments
  | operation _ left right => left.isFirm && right.isFirm
  | list items => allFirm items

/-- Whether this is so in all of some terms. -/
def allFirm : List Term → Bool
  | [] => true
  | term :: rest => term.isFirm && allFirm rest

end

/-- A term that is read as itself has signs in front of it only if it starts with one. -/
theorem signs_eq_zero {term : Term} (h : term.read = term) :
    term.signs = 0 ↔ term.isNegative = false := by
  rw [read] at h
  cases hs : term.signs with
  | zero =>
    cases term with
    | negative value => cases hs
    | _ => exact iff_of_true rfl rfl
  | succ n =>
    rw [hs, negated] at h
    rw [← h]
    exact iff_of_false (Nat.succ_ne_zero n) nofun

/-- What goes on behind a value is read as itself if the value is and has no sign. -/
theorem signs_and_core_iff {value : Term} :
    (value.signs = 0 ∧ value.core = value) ↔ (value.isNegative = false ∧ value.read = value) := by
  constructor
  · rintro ⟨hs, hc⟩
    have self : value.read = value := by rw [read, hs, negated, hc]
    exact ⟨(signs_eq_zero self).mp hs, self⟩
  · rintro ⟨hn, self⟩
    have hs := (signs_eq_zero self).mpr hn
    rw [read, hs, negated] at self
    exact ⟨hs, self⟩

/-- A minus in front is no term without a sign. -/
private theorem negated_eq_iff {n : Nat} {value term : Term} (h : term.isNegative = false) :
    negated n value = term ↔ n = 0 ∧ value = term := by
  cases n with
  | zero => simp [negated]
  | succ n =>
    refine iff_of_false ?_ (fun h ↦ Nat.succ_ne_zero n h.1)
    intro he
    rw [← he] at h
    cases h

mutual

/-- A term is read as itself exactly if no receiver in it has a sign in front of it. -/
theorem read_eq_iff : ∀ term : Term, term.read = term ↔ term.isFirm = true
  | word _ | text _ => by simp [read, signs, core, negated, isFirm]
  | negative value => by
    have inner := read_eq_iff value
    rw [read] at inner
    rw [read, signs, core, negated, isFirm, ← inner, negative.injEq]
  | branch value => by
    have inner := read_eq_iff value
    rw [read] at inner
    rw [read, signs, core, negated, isFirm, ← inner, branch.injEq]
  | member value name => by
    rw [read, signs, core, negated_eq_iff rfl, member.injEq, and_iff_left rfl, signs_and_core_iff,
      read_eq_iff value, isFirm, Bool.and_eq_true, Bool.not_eq_true']
  | call function arguments => by
    rw [read, signs, core, negated, call.injEq, and_iff_right rfl, allRead_eq_iff arguments, isFirm]
  | arrow receiver function arguments => by
    rw [read, signs, core, negated_eq_iff rfl, arrow.injEq, allRead_eq_iff arguments,
      and_iff_right rfl, ← and_assoc, signs_and_core_iff, read_eq_iff receiver, isFirm,
      Bool.and_eq_true, Bool.and_eq_true, Bool.not_eq_true']
  | operation symbol left right => by
    have first := read_eq_iff left
    have second := read_eq_iff right
    rw [read] at first second
    rw [read, signs, core, negated, operation.injEq, and_iff_right rfl, first, second, isFirm,
      Bool.and_eq_true]
  | list items => by
    rw [read, signs, core, negated, list.injEq, allRead_eq_iff items, isFirm]

/-- Terms are read as themselves exactly if this is so in all of them. -/
theorem allRead_eq_iff : ∀ terms : List Term, allRead terms = terms ↔ allFirm terms = true
  | [] => by simp [allRead, allFirm]
  | term :: rest => by
    have first := read_eq_iff term
    rw [read] at first
    rw [allRead, allFirm, List.cons.injEq, first, allRead_eq_iff rest, Bool.and_eq_true]

end

end Term

end FrameQuery.PureText
