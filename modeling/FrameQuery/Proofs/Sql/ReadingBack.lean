import FrameQuery.Proofs.Sql.Precedence

/-!
# Reading phrases back

What a machine reads of the text of a phrase is found by recursion on the phrase. With parentheses
around every operand it is the phrase. Without them it is the phrase exactly if every operand that
stands bare binds more tightly than what it is an operand of: anything else lets an operator get
into its operand, or takes the operand away from it.
-/

namespace FrameQuery.Sql

/-! ### What is read -/

/-- What is read between brackets. -/
def enclosed? (read : List Pending → Option Reading) : Option Phrase := (read []).map (·.closed)

/-- A phrase that is read in the same way behind whatever waits. -/
def atom? (value : Option Phrase) (pending : List Pending) : Option Reading :=
  value.map (⟨pending, ·, closedLevel⟩)

/-- Between brackets an atom is itself. -/
@[simp] theorem enclosed?_atom? (value : Option Phrase) : enclosed? (atom? value) = value := by
  cases value <;> rfl

/-- What is read of an operand. -/
def shelled? (bracketed : Bool) (read : List Pending → Option Reading) (pending : List Pending) :
    Option Reading :=
  if bracketed then atom? (enclosed? read) pending else read pending

/-- An atom needs no parentheses. -/
@[simp] theorem shelled?_atom? (bracketed : Bool) (value : Option Phrase) :
    shelled? bracketed (atom? value) = atom? value := by
  cases bracketed with
  | false => rfl
  | true => exact congrArg atom? (enclosed?_atom? value)

/-- What is read of an operator between its operands. -/
def combined? (operator : Infix) (left right : List Pending → Option Reading)
    (pending : List Pending) : Option Reading :=
  (left pending).bind fun l ↦
    let l := l.settled operator.level
    if operator.demand ≤ l.strength then right (.combined operator l.value :: l.pending) else none

/-- What is read of `IS NULL` or `IS NOT NULL` behind its operand. -/
def nullity? (present : Bool) (operand : List Pending → Option Reading) (pending : List Pending) :
    Option Reading :=
  (operand pending).map fun r ↦
    let r := r.settled nullLevel
    ⟨r.pending, .nullity present r.value, nullLevel⟩

namespace Phrase

mutual

/-- What is read of the text of a phrase behind what waits. -/
def read (bracketed : Bool) : Phrase → List Pending → Option Reading
  | word text, pending => some ⟨pending, .word text, nameLevel⟩
  | applied .not operand, pending =>
    if Pending.isLoose pending then
      atom? (enclosed? (shelled? bracketed (operand.read bracketed))) (.applied .not :: pending)
    else none
  | applied .minus operand, pending => operand.read bracketed (.applied .minus :: pending)
  | applied .interval operand, pending => operand.read bracketed (.applied .interval :: pending)
  | combined operator left right, pending =>
    let both := combined? operator (shelled? bracketed (left.read bracketed))
      (shelled? bracketed (right.read bracketed))
    atom? (enclosed? both) pending
  | nullity present operand, pending =>
    atom? (enclosed? (nullity? present (shelled? bracketed (operand.read bracketed)))) pending
  | within value items, pending =>
    (shelled? bracketed (value.read bracketed) pending).bind fun r ↦
      let r := r.settled memberLevel
      if memberLevel < r.strength then
        (readAll bracketed items).map fun items ↦ ⟨r.pending, .within r.value items, memberLevel⟩
      else none
  | call function distinct arguments, pending =>
    atom? ((readAll bracketed arguments).map (.call function distinct)) pending
  | cast value type, pending =>
    atom? ((enclosed? (shelled? bracketed (value.read bracketed))).map (.cast · type)) pending
  | branch condition result otherwise, pending =>
    let parts : Option Phrase := do
      let condition ← enclosed? (shelled? bracketed (condition.read bracketed))
      let result ← enclosed? (shelled? bracketed (result.read bracketed))
      let otherwise ← enclosed? (shelled? bracketed (otherwise.read bracketed))
      return .branch condition result otherwise
    atom? parts pending

/-- What is read of the texts of phrases. -/
def readAll (bracketed : Bool) : List Phrase → Option (List Phrase)
  | [] => some []
  | phrase :: rest => do
    let value ← enclosed? (shelled? bracketed (phrase.read bracketed))
    return value :: (← readAll bracketed rest)

end

end Phrase

/-! ### Running the machine -/

namespace Machine

/-- The first token is read first. -/
theorem run_cons (m : Machine) (t : Token) (rest : List Token) :
    m.run (t :: rest) = (m.step t).bind (·.run rest) :=
  List.foldlM_cons

/-- Tokens that are read as an operand where one has to come. -/
def Reads (ts : List Token) (read : List Pending → Option Reading) : Prop :=
  ∀ bracket pending outer rest, run ⟨bracket, pending, .start, outer⟩ (ts ++ rest) =
    (read pending).bind fun r ↦
      run ⟨bracket, r.pending, .complete r.value r.strength, outer⟩ rest

variable {ts : List Token} {read : List Pending → Option Reading} {bracketed : Bool}

/-- Tokens in parentheses are read as what is read between them. -/
theorem Reads.enclosed (h : Reads ts read) :
    Reads (Phrase.enclosed ts) (atom? (enclosed? read)) := by
  intro bracket pending outer rest
  have opened : run ⟨bracket, pending, .start, outer⟩ (Phrase.enclosed ts ++ rest) =
      run ⟨.parens, [], .start, (bracket, pending) :: outer⟩ (ts ++ .closing :: rest) := by
    rw [Phrase.enclosed, List.cons_append, List.cons_append, run_cons, List.append_assoc]
    rfl
  rw [opened, h]
  cases he : read [] with
  | none => simp [atom?, enclosed?, he]
  | some r => simp [atom?, enclosed?, he, run_cons, step, resume, leave]

/-- An operand is read as such. -/
theorem Reads.shelled (h : Reads ts read) :
    Reads (Phrase.shelled bracketed ts) (shelled? bracketed read) := by
  cases bracketed with
  | false => exact h
  | true => exact h.enclosed

/-- The same reading. -/
theorem Reads.of_eq {other : List Pending → Option Reading} (h : Reads ts read)
    (he : ∀ pending, read pending = other pending) : Reads ts other := by
  rwa [← funext he]

/-- An operator in front of its operand. -/
theorem Reads.applied {word : String} {operator : Prefix} (h : Reads ts read)
    (hs : ∀ bracket pending outer, step ⟨bracket, pending, .start, outer⟩ (.word word) =
      some ⟨bracket, .applied operator :: pending, .start, outer⟩) :
    Reads (.word word :: ts) fun pending ↦ read (.applied operator :: pending) := by
  intro bracket pending outer rest
  rw [List.cons_append, run_cons, hs]
  exact h _ _ _ _

/-- `NOT` in front of its operand. -/
theorem Reads.negated (h : Reads ts read) :
    Reads (.word "NOT" :: ts) fun pending ↦
      if Pending.isLoose pending then read (.applied .not :: pending) else none := by
  intro bracket pending outer rest
  have word : step ⟨bracket, pending, .start, outer⟩ (.word "NOT") =
      if Pending.isLoose pending then some ⟨bracket, .applied .not :: pending, .start, outer⟩
      else none := rfl
  rw [List.cons_append, run_cons, word]
  dsimp only
  split
  · exact h _ _ _ _
  · rfl

/-- An operator between its operands. -/
theorem Reads.combined {us : List Token} {other : List Pending → Option Reading} (operator : Infix)
    (hl : Reads ts read) (hr : Reads us other) :
    Reads (ts ++ .word operator.word :: us) (combined? operator read other) := by
  intro bracket pending outer rest
  rw [List.append_assoc, hl]
  cases he : read pending with
  | none => simp [combined?, he]
  | some l =>
    have word : step ⟨bracket, l.pending, .complete l.value l.strength, outer⟩
        (.word operator.word) = Machine.operator ⟨bracket, l.pending, .complete l.value l.strength,
          outer⟩ l (.operator operator) := by
      simp [step, resume]
    simp only [combined?, he, Option.bind_some, List.cons_append, run_cons, word,
      Machine.operator]
    split
    · exact hr _ _ _ _
    · rfl

/-- `IS NULL` or `IS NOT NULL` behind its operand. -/
theorem Reads.nullity (present : Bool) (h : Reads ts read) :
    Reads (ts ++ (Phrase.nullWords present).map .word) (nullity? present read) := by
  intro bracket pending outer rest
  rw [List.append_assoc, h]
  cases he : read pending with
  | none => simp [nullity?, he]
  | some r => cases present <;> simp only [nullity?, he] <;> rfl

/-- Phrases with a comma between neighbours are read as a list of what each is read as. -/
theorem run_listed {listing : Listing} {phrases : List Phrase} (ne : phrases ≠ [])
    (h : ∀ phrase ∈ phrases, Reads (phrase.tokens bracketed) (phrase.read bracketed))
    (done : List Phrase) (pending : List Pending) (bracket : Bracket)
    (outer : List (Bracket × List Pending)) (rest : List Token) :
    run ⟨.list listing done, [], .start, (bracket, pending) :: outer⟩
        (Phrase.listed (Phrase.allTokens bracketed phrases) ++ .closing :: rest) =
      (Phrase.readAll bracketed phrases).bind fun values ↦
        run ⟨bracket, pending, .complete (listing.apply (done ++ values)) listing.strength, outer⟩
          rest := by
  induction phrases generalizing done with
  | nil => exact absurd rfl ne
  | cons phrase phrases ih =>
    obtain ⟨first, others⟩ := List.forall_mem_cons.mp h
    cases phrases with
    | nil =>
      rw [Phrase.allTokens, Phrase.allTokens, Phrase.listed, first.shelled]
      cases he : shelled? bracketed (phrase.read bracketed) [] with
      | none => simp [Phrase.readAll, enclosed?, he]
      | some r => simp [Phrase.readAll, enclosed?, he, run_cons, step, resume, leave]
    | cons second phrases =>
      have split : Phrase.listed (Phrase.allTokens bracketed (phrase :: second :: phrases)) =
          Phrase.shelled bracketed (phrase.tokens bracketed) ++
            .comma :: Phrase.listed (Phrase.allTokens bracketed (second :: phrases)) := rfl
      have next := ih (by simp) others
      rw [split, List.append_assoc, first.shelled, Phrase.readAll]
      cases he : shelled? bracketed (phrase.read bracketed) [] with
      | none => simp [enclosed?, he]
      | some r =>
        simp [enclosed?, he, run_cons, step, resume, expecting, next, Option.bind_assoc]

/-- The words of a type are read up to the parenthesis behind them. -/
theorem run_words {type : List String} (words : List String) (ne : words ++ type ≠ [])
    (value : Phrase) (inner : Bracket) (waiting : List Pending) (bracket : Bracket)
    (pending : List Pending) (outer : List (Bracket × List Pending)) (rest : List Token) :
    run ⟨inner, waiting, .target value words, (bracket, pending) :: outer⟩
        (type.map .word ++ .closing :: rest) =
      run ⟨bracket, pending, .complete (.cast value (words ++ type)) closedLevel, outer⟩ rest := by
  induction type generalizing words with
  | nil =>
    rw [List.append_nil] at ne
    simp [run_cons, step, ne, leave]
  | cons word type ih =>
    have next := ih (words ++ [word]) (by simp)
    rw [List.append_assoc] at next
    rw [List.map_cons, List.cons_append, run_cons]
    exact next

end Machine

open Machine (Reads)

/-- The tokens of a phrase are read as the phrase says. -/
theorem Phrase.Proper.reads {phrase : Phrase} (proper : phrase.Proper) (bracketed : Bool) :
    Reads (phrase.tokens bracketed) (phrase.read bracketed) := by
  induction proper with
  | word isWord free =>
    intro bracket pending outer rest
    simp [tokens, read, Machine.run_cons, Machine.step, Machine.operand, free, Machine.holding]
  | @negated operand _ ih =>
    rw [tokens]
    by_cases condition : operand.isCondition = true
    · rw [if_pos condition]
      refine (ih.shelled.of_eq fun pending ↦ ?_).negated
      cases operand with
      | combined operator left right =>
        change shelled? bracketed (atom? _) pending =
          atom? (enclosed? (shelled? bracketed (atom? _))) pending
        rw [shelled?_atom?, enclosed?_atom?]
      | _ => cases condition
    · rw [if_neg condition]
      exact ih.shelled.enclosed.negated
  | @signed operator text sign _ ih =>
    cases operator with
    | not => exact absurd rfl sign
    | minus => exact ih.applied fun _ _ _ ↦ rfl
    | interval => exact ih.applied fun _ _ _ ↦ rfl
  | combined _ _ hl hr => exact (hl.shelled.combined _ hr.shelled).enclosed
  | nullity _ ih => exact (ih.shelled.nullity _).enclosed
  | @within value items _ ne _ ihv ihi =>
    intro bracket pending outer rest
    have word (r : Reading) : Machine.run ⟨bracket, r.pending, .complete r.value r.strength, outer⟩
        ((.word "IN" :: enclosed (listed (allTokens bracketed items))) ++ rest) =
        if memberLevel < (r.settled memberLevel).strength then
          Machine.run ⟨.list (.items (r.settled memberLevel).value) [], [], .start,
            (bracket, (r.settled memberLevel).pending) :: outer⟩
            (listed (allTokens bracketed items) ++ .closing :: rest)
        else none := by
      rw [List.cons_append, enclosed, List.cons_append, List.cons_append, List.append_assoc,
        Machine.run_cons]
      have step : Machine.step ⟨bracket, r.pending, .complete r.value r.strength, outer⟩
          (.word "IN") = if memberLevel < (r.settled memberLevel).strength then
            some ⟨bracket, (r.settled memberLevel).pending, .member (r.settled memberLevel).value,
              outer⟩ else none := rfl
      rw [step]
      split <;> rfl
    rw [tokens, read, List.append_assoc, ihv.shelled]
    cases shelled? bracketed (value.read bracketed) pending with
    | none => rfl
    | some r =>
      simp only [Option.bind_some, word]
      split
      · rw [Machine.run_listed ne ihi]
        cases readAll bracketed items <;> rfl
      · rfl
  | @call function distinct arguments hf ne _ _ iha =>
    intro bracket pending outer rest
    have first : Machine.run ⟨bracket, pending, .start, outer⟩
        ((Phrase.call function distinct arguments).tokens bracketed ++ rest) =
        Machine.run ⟨.list (.call function distinct) [], [], .start, (bracket, pending) :: outer⟩
          (listed (allTokens bracketed arguments) ++ .closing :: rest) := by
      cases hf with
      | word isWord free =>
        have name : Machine.step ⟨bracket, pending, .start, outer⟩ (.word function) =
            some ⟨bracket, pending, .complete (.word function) nameLevel, outer⟩ := by
          simp [Machine.step, Machine.operand, free, Machine.holding]
        simp only [tokens, enclosed, List.cons_append, List.append_assoc, Machine.run_cons, name]
        cases distinct <;> rfl
    rw [first]
    by_cases none : arguments = []
    · subst none
      have all : distinct = false := by simpa using ne
      subst all
      rfl
    · rw [Machine.run_listed none iha, read]
      cases readAll bracketed arguments <;> rfl
  | @cast value type _ ne _ ih =>
    intro bracket pending outer rest
    have first : Machine.run ⟨bracket, pending, .start, outer⟩
        ((Phrase.cast value type).tokens bracketed ++ rest) =
        Machine.run ⟨.cast, [], .start, (bracket, pending) :: outer⟩
          (shelled bracketed (value.tokens bracketed) ++ .word "AS" ::
            (type.map .word ++ .closing :: rest)) := by
      simp only [tokens, enclosed, List.cons_append, List.append_assoc, Machine.run_cons]
      rfl
    rw [first, ih.shelled, read]
    cases he : shelled? bracketed (value.read bracketed) [] with
    | none => simp [atom?, enclosed?, he]
    | some r =>
      have word : Machine.step ⟨.cast, r.pending, .complete r.value r.strength,
          (bracket, pending) :: outer⟩ (.word "AS") =
          some ⟨.cast, [], .target r.closed [], (bracket, pending) :: outer⟩ := rfl
      rw [Option.bind_some, Machine.run_cons, word, Option.bind_some, Machine.run_words [] ne]
      simp [atom?, enclosed?, he]
  | @branch condition result otherwise _ _ _ hc hr ho =>
    intro bracket pending outer rest
    have first : Machine.run ⟨bracket, pending, .start, outer⟩
        ((Phrase.branch condition result otherwise).tokens bracketed ++ rest) =
        Machine.run ⟨.condition, [], .start, (bracket, pending) :: outer⟩
          (shelled bracketed (condition.tokens bracketed) ++ .word "THEN" ::
            (shelled bracketed (result.tokens bracketed) ++ .word "ELSE" ::
              (shelled bracketed (otherwise.tokens bracketed) ++ .word "END" :: rest))) := by
      simp only [tokens, List.cons_append, List.append_assoc, Machine.run_cons]
      rfl
    -- Each part is read in a bracket of its own, which the word behind the part replaces.
    rw [first, hc.shelled, read]
    cases hec : shelled? bracketed (condition.read bracketed) [] with
    | none => simp [atom?, enclosed?, hec]
    | some c =>
      have second : Machine.step ⟨.condition, c.pending, .complete c.value c.strength,
          (bracket, pending) :: outer⟩ (.word "THEN") =
          some ⟨.result c.closed, [], .start, (bracket, pending) :: outer⟩ := rfl
      rw [Option.bind_some, Machine.run_cons, second, Option.bind_some, hr.shelled]
      cases her : shelled? bracketed (result.read bracketed) [] with
      | none => simp [atom?, enclosed?, hec, her]
      | some r =>
        have third : Machine.step ⟨.result c.closed, r.pending, .complete r.value r.strength,
            (bracket, pending) :: outer⟩ (.word "ELSE") =
            some ⟨.otherwise c.closed r.closed, [], .start, (bracket, pending) :: outer⟩ := rfl
        rw [Option.bind_some, Machine.run_cons, third, Option.bind_some, ho.shelled]
        cases heo : shelled? bracketed (otherwise.read bracketed) [] with
        | none => simp [atom?, enclosed?, hec, her, heo]
        | some o =>
          simp only [atom?, enclosed?, hec, her, heo, Option.map_some, Option.bind_eq_bind,
            Option.bind_some, Machine.run_cons]
          rfl

end FrameQuery.Sql
