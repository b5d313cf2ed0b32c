import FrameQuery.Expr.Pure
import FrameQuery.Proofs.Pure.Terms

/-!
# Reading terms back

The tokens of a term are read as the term, except that a sign in front of a receiver is read as one
in front of the whole call. What the tokens of an operand are read as depends neither on what waits
for the operand nor on what follows; arguments, which stand on their own between brackets, need no
parentheses.
-/

namespace FrameQuery.PureText

namespace Machine

/-- The first token is read first. -/
theorem run_cons (m : Machine) (t : Token) (rest : List Token) :
    m.run (t :: rest) = (m.step t).bind (·.run rest) :=
  List.foldlM_cons

/-- Tokens that are read as an operand, wherever one has to come. -/
def Operand (ts : List Token) (term : Term) : Prop :=
  ∀ bracket pending outer rest, run ⟨bracket, pending, .start, outer⟩ (ts ++ rest) =
    run ⟨bracket, pending.signed term.signs, .complete term.core, outer⟩ rest

/-- Tokens that are read as a term of their own between two brackets. -/
def Argument (branched : Bool) (ts : List Token) (term : Term) : Prop :=
  ∀ bracket outer, ∃ pending value,
    (∀ rest, run ⟨bracket, ⟨branched, .none, 0⟩, .start, outer⟩ (ts ++ rest) =
      run ⟨bracket, pending, .complete value, outer⟩ rest) ∧
    pending.close value = if branched then .branch term.read else term.read

variable {ts us : List Token} {term left right : Term}

/-- Signs that wait are closed with their operand. -/
private theorem close_signed (pending : Pending) (n : Nat) (value : Term) :
    (pending.signed n).close value = pending.close (negated n value) := by
  simp only [Pending.close, Pending.signed, negated_add]

/-- An operand may stand on its own. -/
theorem Operand.argument (h : Operand ts term) (branched : Bool) : Argument branched ts term := by
  intro bracket outer
  refine ⟨Pending.signed ⟨branched, .none, 0⟩ term.signs, term.core, h bracket _ outer, ?_⟩
  rw [close_signed]
  rfl

/-- A single operand stands alone exactly if no sign is in front of it. -/
theorem Operand.standsAlone_iff {text : String} (h : Operand (tokens text) term) :
    StandsAlone text ↔ term.signs = 0 := by
  have read := h .whole .none [] []
  rw [List.append_nil] at read
  rw [StandsAlone, initial, read]
  constructor
  · rintro ⟨value, same⟩
    have pending := congrArg Machine.pending (Option.some.inj same)
    have signs := congrArg Pending.signs pending
    simpa [Pending.signed, Pending.none, holding] using signs
  · intro none
    rw [none]
    exact ⟨term.core, rfl⟩

/-- A text of a single operand is read as its tokens are. -/
theorem Operand.readBack {text : String} (h : Operand (tokens text) term) :
    readBack text = some term.read := by
  have read := h .whole .none [] []
  rw [List.append_nil] at read
  rw [PureText.readBack, initial, read]
  change some ((Pending.none.signed term.signs).close term.core) = _
  rw [close_signed]
  rfl

/-! ### Single tokens -/

/-- A word is an operand. -/
theorem Operand.word (spelling : String) : Operand [.word spelling] (.word spelling) :=
  fun _ _ _ _ ↦ rfl

/-- A text between quotes is an operand. -/
theorem Operand.text (content : String) : Operand [.text content] (.text content) :=
  fun _ _ _ _ ↦ rfl

/-- A minus in front of an operand. -/
theorem Operand.negative (h : Operand ts term) : Operand (.sign "-" :: ts) (.negative term) := by
  intro bracket pending outer rest
  have more : (pending.signed 1).signed term.signs = pending.signed (term.signs + 1) := by
    simp only [Pending.signed, Nat.add_assoc, Nat.add_comm 1]
  rw [List.cons_append, run_cons]
  change run ⟨bracket, pending.signed 1, .start, outer⟩ (ts ++ rest) = _
  rw [h, more]
  rfl

/-- A name behind a point. -/
theorem Operand.member (h : Operand ts term) (name : String) {t : Token}
    (ht : t = .word name ∨ t = .text name) :
    Operand (ts ++ [.point, t]) (.member term name) := by
  intro bracket pending outer rest
  rw [List.append_assoc, h]
  rcases ht with rfl | rfl <;> rfl

/-! ### Brackets -/

/-- A term in parentheses is an operand. -/
theorem Argument.enclosed (h : Argument false ts term) (unsigned : term.signs = 0) :
    Operand (.opening :: ts ++ [.closing]) term := by
  intro bracket pending outer rest
  obtain ⟨inner, value, read, closed⟩ := h .parens ((bracket, pending) :: outer)
  rw [List.append_assoc, List.cons_append, run_cons]
  change run ⟨.parens, .none, .start, (bracket, pending) :: outer⟩ (ts ++ ([.closing] ++ rest)) = _
  rw [Pending.none, read, List.singleton_append, run_cons]
  change run ⟨bracket, pending, .complete (inner.close value), outer⟩ rest = _
  rw [closed, if_neg Bool.false_ne_true, Term.read, unsigned]
  rfl

/-- An operator between two operands. -/
theorem Argument.operation {symbol : String} (branched : Bool) (hs : symbol ∈ infixes)
    (hl : Operand ts left) (hr : Operand us right) :
    Argument branched (ts ++ .sign symbol :: us) (.operation symbol left right) := by
  intro bracket outer
  refine ⟨Pending.signed ⟨branched, some (left.read, symbol), 0⟩ right.signs, right.core, ?_, ?_⟩
  · intro rest
    have sign : step ⟨bracket, Pending.signed ⟨branched, .none, 0⟩ left.signs, .complete left.core,
        outer⟩ (.sign symbol) =
        some ⟨bracket, ⟨branched, some (left.read, symbol), 0⟩, .start, outer⟩ := by
      simp only [step, resume, Pending.signed, if_pos hs, Nat.zero_add, Term.read]
    rw [List.append_assoc, hl, List.cons_append, run_cons, sign]
    exact hr _ _ _ _
  · rw [close_signed]
    rfl

/-- A bar in front of a term makes it a branch. -/
theorem Argument.branch (h : Argument true ts term) :
    Argument false (.sign "|" :: ts) (.branch term) := by
  intro bracket outer
  obtain ⟨pending, value, read, closed⟩ := h bracket outer
  exact ⟨pending, value, read, closed⟩

/-! ### Lists -/

/-- Tokens with a comma between neighbours. -/
def listed : List (List Token) → List Token
  | [] => []
  | [ts] => ts
  | ts :: rest => ts ++ .comma :: listed rest

/-- Arguments with commas between them are read one by one. -/
theorem run_listed {listing : Listing} {tss : List (List Token)} {terms : List Term}
    (h : List.Forall₂ (Argument false) tss terms) (ne : tss ≠ []) (done : List Term)
    (bracket : Bracket) (pending : Pending) (outer : List (Bracket × Pending))
    (rest : List Token) :
    run ⟨.list listing done, .none, .start, (bracket, pending) :: outer⟩
        (listed tss ++ listing.closing :: rest) =
      run ⟨bracket, pending, .complete (listing.apply (done ++ Term.allRead terms)), outer⟩
        rest := by
  induction h generalizing done with
  | nil => exact absurd rfl ne
  | @cons ts term tss terms first others ih =>
    obtain ⟨inner, value, read, closed⟩ := first (.list listing done) ((bracket, pending) :: outer)
    rw [if_neg Bool.false_ne_true] at closed
    cases others with
    | nil =>
      have last : step ⟨.list listing done, inner, .complete value, (bracket, pending) :: outer⟩
          listing.closing =
            some ⟨bracket, pending, .complete (listing.apply (done ++ [inner.close value])),
              outer⟩ := by
        cases listing <;> rfl
      rw [listed, Pending.none, read, run_cons, last, closed]
      rfl
    | @cons us next tss terms second others =>
      have comma : step ⟨.list listing done, inner, .complete value, (bracket, pending) :: outer⟩
          .comma = some ⟨.list listing (done ++ [inner.close value]), .none, .start,
            (bracket, pending) :: outer⟩ := rfl
      have behind := ih (List.cons_ne_nil _ _) (done ++ [term.read])
      have parts : listed (ts :: us :: tss) = ts ++ .comma :: listed (us :: tss) := rfl
      rw [parts, List.append_assoc, Pending.none, read, List.cons_append, run_cons, comma, closed]
      rw [List.append_assoc] at behind
      exact behind

/-- The closing bracket of a list that may be empty. -/
private theorem run_list {listing : Listing} {tss : List (List Token)} {terms : List Term}
    (h : List.Forall₂ (Argument false) tss terms) (bracket : Bracket) (pending : Pending)
    (outer : List (Bracket × Pending)) (rest : List Token) :
    run ⟨.list listing [], .none, .start, (bracket, pending) :: outer⟩
        (listed tss ++ listing.closing :: rest) =
      run ⟨bracket, pending, .complete (listing.apply (Term.allRead terms)), outer⟩ rest := by
  cases h with
  | nil => cases listing <;> rfl
  | cons first others => exact run_listed (.cons first others) (List.cons_ne_nil _ _) _ _ _ _ _

variable {tss : List (List Token)} {terms : List Term}

/-- The tokens of a call. -/
theorem Operand.call (function : String) (h : List.Forall₂ (Argument false) tss terms) :
    Operand (.function function :: listed tss ++ [.closing]) (.call function terms) := by
  intro bracket pending outer rest
  have read := @run_list (.call function) tss terms h bracket pending outer rest
  rw [List.append_assoc, List.cons_append, run_cons]
  exact read

/-- The tokens of a call behind an arrow. -/
theorem Operand.arrow {receiver : Term} (hr : Operand ts receiver) (function : String)
    (h : List.Forall₂ (Argument false) tss terms) :
    Operand (ts ++ .arrow :: .function function :: listed tss ++ [.closing])
      (.arrow receiver function terms) := by
  intro bracket pending outer rest
  have read := @run_list (.arrow receiver.core function) tss terms h bracket
    (pending.signed receiver.signs) outer rest
  rw [List.append_assoc, List.append_assoc, hr, List.cons_append, run_cons, List.cons_append]
  exact read

/-- The tokens of a list. -/
theorem Operand.list (h : List.Forall₂ (Argument false) tss terms) :
    Operand (.openingList :: listed tss ++ [.closingList]) (.list terms) := by
  intro bracket pending outer rest
  have read := @run_list .items tss terms h bracket pending outer rest
  rw [List.append_assoc, List.cons_append, run_cons]
  exact read

end Machine

end FrameQuery.PureText
