import FrameQuery.Proofs.Sql.ReadingBack

/-!
# Operands that stand bare

A phrase is orderly if each of its operands that stands without parentheses binds more tightly than
what it is an operand of. An orderly phrase is read back as it is, behind whatever binds less
tightly than itself. Any other phrase is not: an operator gets into the operand in front of it, or
it takes the beginning of the operand behind it.
-/

namespace FrameQuery.Sql

/-! ### Stacks -/

variable {n strength : Nat} {pending : List Pending} {value : Phrase}

/-- What binds less tightly than a level stays on the stack, and everything below it. -/
theorem settle_of_lt (h : ∀ q ∈ pending.head?, q.level < n) :
    settle n pending value strength = ⟨pending, value, strength⟩ := by
  cases pending with
  | nil => rfl
  | cons q pending => rw [settle, if_neg (Nat.not_le.mpr (h q rfl))]

/-- What binds as tightly as a level is taken off the stack. -/
theorem settle_of_le {q : Pending} (h : n ≤ q.level) :
    settle n (q :: pending) value strength = settle n pending (q.apply value) q.level :=
  if_pos h

/-- When nothing follows, everything is taken off the stack. -/
theorem closed_eq (r : Reading) : r.closed = r.pending.foldl (fun v p ↦ p.apply v) r.value := by
  obtain ⟨pending, value, strength⟩ := r
  change (settle 0 pending value strength).value = pending.foldl _ value
  induction pending generalizing value strength with
  | nil => rfl
  | cons q pending ih => rw [settle, if_pos (Nat.zero_le _), ih, List.foldl_cons]

/-- What has been taken off the stack completely is what is read when nothing follows. -/
theorem settled_value {r : Reading} (h : (r.settled n).pending = []) :
    (r.settled n).value = r.closed := by
  rw [closed_eq]
  obtain ⟨pending, value, strength⟩ := r
  change (settle n pending value strength).pending = [] at h
  change (settle n pending value strength).value = pending.foldl _ value
  induction pending generalizing value strength with
  | nil => rfl
  | cons q pending ih =>
    rw [settle] at h ⊢
    split at h
    · next hq => rw [if_pos hq, ih _ _ h, List.foldl_cons]
    · cases h

namespace Reading

/-- A reading that is a phrase of some strength as soon as something not tighter follows. -/
def Shows (r : Reading) (pending : List Pending) (value : Phrase) (strength : Nat) : Prop :=
  ∀ n ≤ strength, r.settled n = settle n pending value strength

/-- A phrase that stands alone is read when nothing follows. -/
theorem Shows.closed_apply {r : Reading} (h : r.Shows pending value strength) :
    r.closed = pending.foldl (fun v p ↦ p.apply v) value := by
  have all := closed_eq ⟨pending, value, strength⟩
  rw [Reading.closed, h 0 (Nat.zero_le _)]
  exact all

end Reading

/-! ### Orderly phrases -/

/-- Signs bind more tightly than operators between operands. -/
theorem Infix.level_le (operator : Infix) : operator.level ≤ operator.demand ∧
    operator.demand ≤ Prefix.minus.level ∧ operator.level < Prefix.minus.level := by
  cases operator with
  | compare operator => cases operator <;> decide
  | _ => decide

/-- No operator between operands binds like `NOT`. -/
theorem Infix.level_ne (operator : Infix) : operator.level ≠ Prefix.not.level := by
  cases operator with
  | compare operator => cases operator <;> decide
  | _ => decide

namespace Phrase

/-- How tightly the text of an operand binds. -/
def grip (bracketed : Bool) (operand : Phrase) : Nat :=
  if bracketed then closedLevel else operand.strength

/-- Phrases whose operands bind tightly enough where they stand. -/
inductive Orderly (bracketed : Bool) : Phrase → Prop
  | word {text : String} : Orderly bracketed (word text)
  | applied {operator : Prefix} {operand : Phrase} (ho : Orderly bracketed operand) :
    Orderly bracketed (applied operator operand)
  | combined {operator : Infix} {left right : Phrase} (hl : Orderly bracketed left)
    (hr : Orderly bracketed right) (hold : operator.demand ≤ left.grip bracketed)
    (keep : operator.level < right.grip bracketed) :
    Orderly bracketed (combined operator left right)
  | nullity {present : Bool} {operand : Phrase} (ho : Orderly bracketed operand)
    (hold : nullLevel ≤ operand.grip bracketed) : Orderly bracketed (nullity present operand)
  | within {value : Phrase} {items : List Phrase} (hv : Orderly bracketed value)
    (hi : ∀ item ∈ items, Orderly bracketed item) (hold : memberLevel < value.grip bracketed) :
    Orderly bracketed (within value items)
  | call {function : String} {distinct : Bool} {arguments : List Phrase}
    (ha : ∀ argument ∈ arguments, Orderly bracketed argument) :
    Orderly bracketed (call function distinct arguments)
  | cast {value : Phrase} {type : List String} (hv : Orderly bracketed value) :
    Orderly bracketed (cast value type)
  | branch {condition result otherwise : Phrase} (hc : Orderly bracketed condition)
    (hr : Orderly bracketed result) (ho : Orderly bracketed otherwise) :
    Orderly bracketed (branch condition result otherwise)

variable {bracketed : Bool} {phrase : Phrase} {r : Reading}

section

variable {value operand left right condition result otherwise : Phrase} {phrases : List Phrase}

/-- An operator in front of an orderly operand. -/
theorem orderly_applied {operator : Prefix} :
    (applied operator operand).Orderly bracketed ↔ operand.Orderly bracketed := by
  refine ⟨fun h ↦ ?_, .applied⟩
  cases h with
  | applied ho => exact ho

/-- An operator between orderly operands that bind tightly enough. -/
theorem orderly_combined {operator : Infix} :
    (combined operator left right).Orderly bracketed ↔
      (left.Orderly bracketed ∧ right.Orderly bracketed) ∧
        operator.demand ≤ left.grip bracketed ∧ operator.level < right.grip bracketed := by
  refine ⟨fun h ↦ ?_, fun ⟨⟨hl, hr⟩, hold, keep⟩ ↦ .combined hl hr hold keep⟩
  cases h with
  | combined hl hr hold keep => exact ⟨⟨hl, hr⟩, hold, keep⟩

/-- `IS NULL` behind an orderly operand that binds tightly enough. -/
theorem orderly_nullity {present : Bool} : (nullity present operand).Orderly bracketed ↔
    operand.Orderly bracketed ∧ nullLevel ≤ operand.grip bracketed := by
  refine ⟨fun h ↦ ?_, fun ⟨ho, hold⟩ ↦ .nullity ho hold⟩
  cases h with
  | nullity ho hold => exact ⟨ho, hold⟩

/-- `IN` between an orderly value that binds tightly enough and orderly items. -/
theorem orderly_within : (within value phrases).Orderly bracketed ↔
    (value.Orderly bracketed ∧ ∀ item ∈ phrases, item.Orderly bracketed) ∧
      memberLevel < value.grip bracketed := by
  refine ⟨fun h ↦ ?_, fun ⟨⟨hv, hi⟩, hold⟩ ↦ .within hv hi hold⟩
  cases h with
  | within hv hi hold => exact ⟨⟨hv, hi⟩, hold⟩

/-- A call with orderly arguments. -/
theorem orderly_call {function : String} {distinct : Bool} :
    (call function distinct phrases).Orderly bracketed ↔
      ∀ argument ∈ phrases, argument.Orderly bracketed := by
  refine ⟨fun h ↦ ?_, .call⟩
  cases h with
  | call ha => exact ha

/-- A cast of an orderly value. -/
theorem orderly_cast {type : List String} :
    (cast value type).Orderly bracketed ↔ value.Orderly bracketed := by
  refine ⟨fun h ↦ ?_, .cast⟩
  cases h with
  | cast hv => exact hv

/-- A case distinction with orderly parts. -/
theorem orderly_branch : (branch condition result otherwise).Orderly bracketed ↔
    condition.Orderly bracketed ∧ result.Orderly bracketed ∧ otherwise.Orderly bracketed := by
  refine ⟨fun h ↦ ?_, fun ⟨hc, hr, ho⟩ ↦ .branch hc hr ho⟩
  cases h with
  | branch hc hr ho => exact ⟨hc, hr, ho⟩

end

/-- In parentheses every operand is tight enough. -/
theorem Proper.orderly (proper : phrase.Proper) : phrase.Orderly true := by
  induction proper with
  | word => exact .word
  | negated _ ih => exact .applied ih
  | signed _ _ ih => exact .applied ih
  | @combined operator _ _ _ _ hl hr =>
    exact .combined hl hr (Nat.le_succ_of_le operator.level_le.2.1)
      (Nat.lt_succ_of_lt operator.level_le.2.2)
  | nullity _ ih => exact .nullity ih (Nat.le_of_ble_eq_true rfl)
  | within _ _ _ ihv ihi =>
    exact .within ihv ihi (Nat.lt_of_lt_of_le (by decide) (Nat.le_refl closedLevel))
  | call _ _ _ _ iha => exact .call iha
  | cast _ _ _ ih => exact .cast ih
  | branch _ _ _ hc hr ho => exact .branch hc hr ho

/-- A phrase is read behind what binds less tightly than itself. -/
def IsRead (bracketed : Bool) (phrase : Phrase) : Prop :=
  ∀ pending, (∀ q ∈ pending.head?, q.level < phrase.strength) →
    ∃ r, phrase.read bracketed pending = some r ∧ r.Shows pending phrase phrase.strength

/-- An operand is read behind what binds less tightly than itself. -/
theorem IsRead.shelled (h : phrase.IsRead bracketed) (pending : List Pending)
    (clear : ∀ q ∈ pending.head?, q.level < phrase.grip bracketed) :
    ∃ r, shelled? bracketed (phrase.read bracketed) pending = some r ∧
      r.Shows pending phrase (phrase.grip bracketed) := by
  cases bracketed with
  | false => exact h pending clear
  | true =>
    obtain ⟨r, read, shows⟩ := h [] (by simp)
    refine ⟨⟨pending, phrase, closedLevel⟩, ?_, fun _ _ ↦ rfl⟩
    simp [shelled?, atom?, enclosed?, read, shows.closed_apply]

/-- An operand is read between brackets. -/
theorem IsRead.enclosed (h : phrase.IsRead bracketed) :
    enclosed? (shelled? bracketed (phrase.read bracketed)) = some phrase := by
  obtain ⟨r, read, shows⟩ := h.shelled [] (by simp)
  simp [enclosed?, read, shows.closed_apply]

/-- Operands are read one after the other. -/
theorem readAll_eq {phrases : List Phrase} (h : ∀ phrase ∈ phrases, phrase.IsRead bracketed) :
    readAll bracketed phrases = some phrases := by
  induction phrases with
  | nil => rfl
  | cons phrase phrases ih =>
    obtain ⟨first, rest⟩ := List.forall_mem_cons.mp h
    simp [readAll, first.enclosed, ih rest]

/-- Orderly phrases are read back. -/
theorem Proper.isRead (proper : phrase.Proper) (orderly : phrase.Orderly bracketed) :
    phrase.IsRead bracketed := by
  induction proper with
  | word => exact fun _ _ ↦ ⟨_, rfl, fun _ _ ↦ rfl⟩
  | @negated operand ho ih =>
    cases orderly with
    | applied ordered =>
    intro pending clear
    have loose : Pending.isLoose pending = true := by
      cases pending with
      | nil => rfl
      | cons q _ => exact decide_eq_true (Nat.le_of_lt (clear q rfl))
    refine ⟨⟨.applied .not :: pending, operand, closedLevel⟩, ?_, fun n hn ↦ if_pos hn⟩
    simp [read, loose, atom?, (ih ordered).enclosed]
  | @signed operator text sign _ _ =>
    intro pending _
    cases operator with
    | not => exact absurd rfl sign
    | minus => exact ⟨_, rfl, fun n hn ↦ if_pos hn⟩
    | interval => exact ⟨_, rfl, fun n hn ↦ if_pos hn⟩
  | @combined operator left right _ _ hl hr =>
    cases orderly with
    | combined ol or hold keep =>
    intro pending _
    obtain ⟨le, -, -⟩ := operator.level_le
    obtain ⟨l, readl, showsl⟩ := (hl ol).shelled [] (by simp)
    obtain ⟨r, readr, showsr⟩ := (hr or).shelled [.combined operator left] (by
      intro q hq
      rw [← Option.some.inj hq]
      exact keep)
    have settled : l.settled operator.level = ⟨[], left, left.grip bracketed⟩ :=
      showsl _ (Nat.le_trans le hold)
    refine ⟨⟨pending, .combined operator left right, closedLevel⟩, ?_, fun _ _ ↦ rfl⟩
    simp [read, atom?, enclosed?, combined?, readl, settled, hold, readr, showsr.closed_apply,
      Pending.apply]
  | @nullity present operand _ ih =>
    cases orderly with
    | nullity ordered hold =>
    intro pending _
    obtain ⟨r, readr, shows⟩ := (ih ordered).shelled [] (by simp)
    have settled : r.settled nullLevel = ⟨[], operand, operand.grip bracketed⟩ := shows _ hold
    refine ⟨⟨pending, .nullity present operand, closedLevel⟩, ?_, fun _ _ ↦ rfl⟩
    simp [read, atom?, enclosed?, nullity?, readr, settled, closed_eq]
  | @within value items _ _ _ ihv ihi =>
    cases orderly with
    | within ov oi hold =>
    intro pending clear
    obtain ⟨r, readr, shows⟩ := (ihv ov).shelled pending fun q hq ↦
      Nat.lt_trans (clear q hq) hold
    have settled : r.settled memberLevel = ⟨pending, value, value.grip bracketed⟩ :=
      (shows _ (Nat.le_of_lt hold)).trans (settle_of_lt clear)
    refine ⟨⟨pending, .within value items, memberLevel⟩, ?_, fun _ _ ↦ rfl⟩
    simp [read, readr, settled, hold, readAll_eq fun x hx ↦ ihi x hx (oi x hx)]
  | @call function distinct arguments _ _ _ _ iha =>
    cases orderly with
    | call oa =>
    intro pending _
    refine ⟨⟨pending, .call function distinct arguments, closedLevel⟩, ?_, fun _ _ ↦ rfl⟩
    simp [read, atom?, readAll_eq fun x hx ↦ iha x hx (oa x hx)]
  | @cast value type _ _ _ ih =>
    cases orderly with
    | cast ov =>
    intro pending _
    refine ⟨⟨pending, .cast value type, closedLevel⟩, ?_, fun _ _ ↦ rfl⟩
    simp [read, atom?, (ih ov).enclosed]
  | @branch condition result otherwise _ _ _ hc hr ho =>
    cases orderly with
    | branch oc or oo =>
    intro pending _
    refine ⟨⟨pending, .branch condition result otherwise, closedLevel⟩, ?_, fun _ _ ↦ rfl⟩
    simp [read, atom?, (hc oc).enclosed, (hr or).enclosed, (ho oo).enclosed]

/-! ### What a bare operand is read as -/

/-- What is put in front of an operand whose strength it exceeds stays in front. -/
theorem settle_append {q : Pending} (hq : q.level < n) (pending : List Pending) (value : Phrase)
    (strength : Nat) : settle n (pending ++ [q]) value strength =
      ⟨(settle n pending value strength).pending ++ [q], (settle n pending value strength).value,
        (settle n pending value strength).strength⟩ := by
  induction pending generalizing value strength with
  | nil => exact settle_of_lt fun _ h ↦ Option.some.inj h ▸ hq
  | cons p pending ih =>
    rw [List.cons_append, settle, settle]
    split
    · exact ih _ _
    · rfl

/-- What waits in front of a closed reading is applied last. -/
theorem closed_append (pending : List Pending) (q : Pending) (value : Phrase) (strength : Nat) :
    Reading.closed ⟨pending ++ [q], value, strength⟩ =
      q.apply (Reading.closed ⟨pending, value, strength⟩) := by
  simp [closed_eq]

/-- Whether the text of a phrase begins with an operator or ends with a list, so that it is read
differently behind different operators. -/
def isBare : Phrase → Bool
  | applied _ _ | within _ _ => true
  | _ => false

/-- Any other phrase is read in the same way behind all operators. -/
theorem read_of_not_bare (h : phrase.isBare = false) (hr : phrase.read false pending = some r) :
    ∃ value, r = ⟨pending, value, phrase.strength⟩ ∧
      ∀ others, phrase.read false others = some ⟨others, value, phrase.strength⟩ := by
  have atom : ∃ value, ∀ others, phrase.read false others =
      Option.map (fun v ↦ ⟨others, v, phrase.strength⟩) value := by
    cases phrase with
    | word text => exact ⟨some (word text), fun _ ↦ rfl⟩
    | combined | nullity | call | cast | branch => exact ⟨_, fun _ ↦ rfl⟩
    | applied | within => cases h
  obtain ⟨value, he⟩ := atom
  rw [he] at hr
  obtain ⟨v, rfl, rfl⟩ := Option.map_eq_some_iff.mp hr
  exact ⟨v, rfl, he⟩

/-- `NOT` waits in front of its operand, unless it is one itself of something tighter. -/
theorem read_not_eq_some {operand : Phrase} :
    (applied .not operand).read bracketed pending = some r ↔ Pending.isLoose pending = true ∧
      ∃ value, enclosed? (shelled? bracketed (operand.read bracketed)) = some value ∧
        r = ⟨.applied .not :: pending, value, closedLevel⟩ := by
  rw [read, atom?]
  cases Pending.isLoose pending with
  | false => simp
  | true => simp [Option.map_eq_some_iff, eq_comm (a := r)]

/-- A sign waits in front of its operand. -/
theorem read_sign {operator : Prefix} {text : String} (sign : operator ≠ .not) :
    (applied operator (word text)).read bracketed pending =
      some ⟨.applied operator :: pending, word text, nameLevel⟩ := by
  cases operator with
  | not => exact absurd rfl sign
  | minus | interval => rfl

/-- What is read of a membership: its value takes what waits and binds as tightly. -/
theorem read_within_eq_some {value : Phrase} {items : List Phrase} :
    (within value items).read bracketed pending = some r ↔
      ∃ v values, shelled? bracketed (value.read bracketed) pending = some v ∧
        memberLevel < (v.settled memberLevel).strength ∧ readAll bracketed items = some values ∧
        r = ⟨(v.settled memberLevel).pending, .within (v.settled memberLevel).value values,
          memberLevel⟩ := by
  rw [read, Option.bind_eq_some_iff]
  refine exists_congr fun v ↦ ?_
  dsimp only
  split
  · next hold =>
    rw [Option.map_eq_some_iff]
    constructor
    · rintro ⟨hv, values, he, rfl⟩
      exact ⟨values, hv, hold, he, rfl⟩
    · rintro ⟨values, hv, -, he, rfl⟩
      exact ⟨hv, values, he, rfl⟩
  · next hold => simp [hold]

/-- Whether a phrase is a membership, the only one that takes what stands in front of it. -/
def isWithin : Phrase → Bool
  | within _ _ => true
  | _ => false

/-- A phrase that does not take what waits at the bottom of the stack is read without it. -/
theorem Proper.read_append (proper : phrase.Proper) {q : Pending} (pending : List Pending)
    (keeps : q.level < memberLevel ∨ phrase.isWithin = false)
    (h : phrase.read false (pending ++ [q]) = some r) :
    ∃ r₀, phrase.read false pending = some r₀ ∧
      r = ⟨r₀.pending ++ [q], r₀.value, r₀.strength⟩ := by
  induction proper generalizing pending r with
  | word | combined | nullity | call | cast | branch =>
    obtain ⟨v, rfl, all⟩ := read_of_not_bare rfl h
    exact ⟨_, all pending, rfl⟩
  | negated _ _ =>
    obtain ⟨loose, v, he, rfl⟩ := read_not_eq_some.mp h
    have top : Pending.isLoose pending = true := by
      cases pending with
      | nil => rfl
      | cons p pending => exact loose
    exact ⟨_, read_not_eq_some.mpr ⟨top, v, he, rfl⟩, rfl⟩
  | signed sign _ _ =>
    rw [read_sign sign] at h
    exact ⟨_, read_sign sign, (Option.some.inj h).symm⟩
  | within _ _ _ ihv _ =>
    have low : q.level < memberLevel := keeps.resolve_right nofun
    obtain ⟨v, values, hv, hold, he, rfl⟩ := read_within_eq_some.mp h
    obtain ⟨v₀, hv₀, rfl⟩ := ihv pending (.inl low) hv
    simp only [Reading.settled, settle_append low] at hold ⊢
    exact ⟨_, read_within_eq_some.mpr ⟨v₀, values, hv₀, hold, he, rfl⟩, rfl⟩

/-- Behind nothing at most an operator in front of the phrase waits. -/
theorem Proper.pending_read (proper : phrase.Proper) (h : phrase.read false [] = some r) :
    r.pending = [] ∨ ∃ operator, r.pending = [.applied operator] := by
  induction proper generalizing r with
  | word | combined | nullity | call | cast | branch =>
    obtain ⟨v, rfl, -⟩ := read_of_not_bare rfl h
    exact .inl rfl
  | negated _ _ =>
    obtain ⟨-, v, -, rfl⟩ := read_not_eq_some.mp h
    exact .inr ⟨.not, rfl⟩
  | @signed operator text sign _ _ =>
    rw [read_sign sign] at h
    exact .inr ⟨operator, congrArg Reading.pending (Option.some.inj h).symm⟩
  | within _ _ _ ihv _ =>
    obtain ⟨v, values, hv, -, -, rfl⟩ := read_within_eq_some.mp h
    rcases ihv hv with none | ⟨operator, one⟩
    · exact .inl (by rw [Reading.settled, none, settle])
    · rw [Reading.settled, one, settle]
      split
      · exact .inl rfl
      · exact .inr ⟨operator, rfl⟩

/-- In front of an operator at most one that binds less tightly waits. -/
theorem Proper.pending_settled (proper : phrase.Proper) (h : phrase.read false [] = some r)
    (n : Nat) : (r.settled n).pending = [] ∨
      ∃ operator, (r.settled n).pending = [.applied operator] ∧ operator.level < n := by
  rcases proper.pending_read h with none | ⟨operator, one⟩
  · exact .inl (by rw [Reading.settled, none, settle])
  · rw [Reading.settled, one, settle]
    split
    · exact .inl rfl
    · next low => exact .inr ⟨operator, rfl, Nat.not_le.mp low⟩

/-- If nothing waits in front of an operator, the phrase before it has its own strength. -/
theorem Proper.strength_settled (proper : phrase.Proper) (h : phrase.read false [] = some r)
    (alone : (r.settled n).pending = []) (same : r.closed = phrase) :
    (r.settled n).strength = phrase.strength ∧ min n memberLevel ≤ phrase.strength := by
  have taken {operator : Prefix} {value : Phrase} {strength : Nat}
      (alone : (settle n [.applied operator] value strength).pending = []) :
      (settle n [.applied operator] value strength).strength = operator.level ∧
        min n memberLevel ≤ operator.level := by
    rw [settle] at alone ⊢
    split at alone
    · next low =>
      rw [if_pos low]
      exact ⟨rfl, Nat.le_trans (Nat.min_le_left _ _) low⟩
    · cases alone
  cases proper with
  | word | combined | nullity | call | cast | branch =>
    obtain ⟨v, rfl, -⟩ := read_of_not_bare rfl h
    exact ⟨rfl, Nat.le_trans (Nat.min_le_right _ _) (Nat.le_of_ble_eq_true rfl)⟩
  | negated _ =>
    obtain ⟨-, v, -, rfl⟩ := read_not_eq_some.mp h
    exact taken alone
  | signed sign _ =>
    rw [read_sign sign] at h
    obtain rfl := Option.some.inj h
    exact taken alone
  | within hv ne hi =>
    have own := (Proper.within hv ne hi).pending_read h
    obtain ⟨v, values, hv, -, -, rfl⟩ := read_within_eq_some.mp h
    rcases own with none | ⟨operator, one⟩
    · rw [Reading.settled, none]
      exact ⟨rfl, Nat.min_le_right _ _⟩
    · rw [closed_eq, one] at same
      cases same

/-- A phrase that takes what waits in front of it leaves nothing of it. -/
theorem Proper.pending_tight (proper : phrase.Proper) {operator : Infix} {left : Phrase}
    (tight : memberLevel ≤ operator.level)
    (h : phrase.read false [.combined operator left] = some r) :
    (r.settled memberLevel).pending = [] := by
  have taken (value : Phrase) (strength : Nat) :
      (settle memberLevel [.combined operator left] value strength).pending = [] := by
    rw [settle_of_le tight, settle]
  induction proper generalizing r with
  | word | combined | nullity | call | cast | branch =>
    obtain ⟨v, rfl, -⟩ := read_of_not_bare rfl h
    exact taken _ _
  | negated _ _ =>
    obtain ⟨loose, -⟩ := read_not_eq_some.mp h
    have low : operator.level ≤ Prefix.not.level := of_decide_eq_true loose
    exact absurd (Nat.le_trans tight low) (by decide)
  | @signed sign _ negative _ _ =>
    rw [read_sign negative] at h
    obtain rfl := Option.some.inj h
    have high : memberLevel ≤ sign.level := by
      cases sign with
      | not => exact absurd rfl negative
      | minus | interval => decide
    rw [Reading.settled, settle_of_le high]
    exact taken _ _
  | within _ _ _ ihv _ =>
    obtain ⟨v, values, hv, -, -, rfl⟩ := read_within_eq_some.mp h
    rw [Reading.settled, ihv hv, settle]

/-- Operands that are read back between brackets are orderly, if every phrase is that is read
back. -/
private theorem orderly_of_enclosed {value : Phrase}
    (ih : ∀ {r : Reading}, value.read false [] = some r → r.closed = value → value.Orderly false)
    (h : enclosed? (shelled? false (value.read false)) = some value) : value.Orderly false := by
  obtain ⟨r, read, closed⟩ := Option.map_eq_some_iff.mp h
  exact ih read closed

/-- Lists that are read back are orderly, if every phrase is that is read back. -/
private theorem orderly_of_readAll {phrases : List Phrase}
    (ih : ∀ phrase ∈ phrases, ∀ {r : Reading}, phrase.read false [] = some r →
      r.closed = phrase → phrase.Orderly false)
    (h : readAll false phrases = some phrases) : ∀ phrase ∈ phrases, phrase.Orderly false := by
  induction phrases with
  | nil => simp
  | cons phrase phrases ihp =>
    obtain ⟨first, others⟩ := List.forall_mem_cons.mp ih
    obtain ⟨value, hv, values, hvs, he⟩ : ∃ value, enclosed? (shelled? false (phrase.read false)) =
        some value ∧ ∃ values, readAll false phrases = some values ∧
          value :: values = phrase :: phrases := by
      simpa [readAll, Option.bind_eq_some_iff] using h
    obtain ⟨rfl, rfl⟩ := List.cons.inj he
    exact List.forall_mem_cons.mpr ⟨orderly_of_enclosed first hv, ihp others hvs⟩

/-- Two operands with an operator between them that are read back are orderly. -/
private theorem orderly_of_combined {operator : Infix} {left right : Phrase} (hl : left.Proper)
    (hr : right.Proper)
    (ihl : ∀ {r : Reading}, left.read false [] = some r → r.closed = left → left.Orderly false)
    (ihr : ∀ {r : Reading}, right.read false [] = some r → r.closed = right → right.Orderly false)
    (h : enclosed? (combined? operator (left.read false) (right.read false)) =
      some (combined operator left right)) : (combined operator left right).Orderly false := by
  obtain ⟨r, read, closed⟩ := Option.map_eq_some_iff.mp h
  obtain ⟨l, readl, rest⟩ := Option.bind_eq_some_iff.mp read
  dsimp only at rest
  split at rest
  case isFalse => cases rest
  case isTrue hold =>
    -- What waits in front of the left operand would be applied last.
    have alone : (l.settled operator.level).pending = [] := by
      rcases hl.pending_settled readl operator.level with none | ⟨sign, one, low⟩
      · exact none
      · have loose : sign.level < memberLevel := by
          cases sign with
          | not => decide
          | minus => exact absurd (Nat.lt_trans low operator.level_le.2.2) (by decide)
          | interval => exact absurd (Nat.lt_trans low operator.level_le.2.2) (by decide)
        rw [one] at rest
        obtain ⟨r₀, -, rfl⟩ := hr.read_append (q := .applied sign) [_] (.inl loose) rest
        rw [closed_append] at closed
        cases closed
    rw [alone] at rest
    -- A membership would take the operator with it.
    have keeps : operator.level < memberLevel ∨ right.isWithin = false := by
      refine Classical.or_iff_not_imp_left.mpr fun tight ↦ ?_
      cases hr with
      | within hv ne hi =>
        obtain ⟨v, values, hread, -, -, rfl⟩ := read_within_eq_some.mp rest
        rw [hv.pending_tight (Nat.not_lt.mp tight) hread] at closed
        cases closed
      | _ => rfl
    obtain ⟨r₀, readr, rfl⟩ := hr.read_append (q := .combined operator _) [] keeps rest
    rw [closed_append] at closed
    obtain ⟨-, samel, samer⟩ := Phrase.combined.inj closed
    rw [settled_value alone] at samel
    have strong := hl.strength_settled readl alone samel
    refine .combined (ihl readl samel) (ihr readr samer)
      (Nat.le_trans hold (Nat.le_of_eq strong.1)) ?_
    have below : operator.level < closedLevel := Nat.lt_trans operator.level_le.2.2 (by decide)
    cases hr with
    | word => exact Nat.lt_trans below (Nat.lt_succ_self closedLevel)
    | combined | nullity | call | cast | branch => exact below
    | negated _ =>
      have loose : operator.level ≤ Prefix.not.level :=
        of_decide_eq_true (read_not_eq_some.mp rest).1
      exact Nat.lt_of_le_of_ne loose operator.level_ne
    | @signed sign _ negative _ =>
      cases sign with
      | not => exact absurd rfl negative
      | minus => exact operator.level_le.2.2
      | interval => exact below
    | within _ _ _ => exact keeps.resolve_right nofun

/-- Phrases that are read back are orderly. -/
theorem Proper.orderly_of_read (proper : phrase.Proper) (h : phrase.read false [] = some r)
    (same : r.closed = phrase) : phrase.Orderly false := by
  induction proper generalizing r with
  | word => exact .word
  | @negated operand _ ih =>
    obtain ⟨-, v, he, rfl⟩ := read_not_eq_some.mp h
    obtain rfl : v = operand := (Phrase.applied.inj same).2
    exact .applied (orderly_of_enclosed ih he)
  | signed _ _ _ => exact .applied .word
  | @combined operator left right hl hr ihl ihr =>
    obtain ⟨v, he, rfl⟩ := Option.map_eq_some_iff.mp h
    obtain rfl : v = Phrase.combined operator left right := same
    exact orderly_of_combined hl hr ihl ihr he
  | @nullity present operand ho ih =>
    obtain ⟨v, he, rfl⟩ := Option.map_eq_some_iff.mp h
    obtain rfl : v = Phrase.nullity present operand := same
    obtain ⟨_, he, closed⟩ := Option.map_eq_some_iff.mp he
    obtain ⟨x, read, rfl⟩ := Option.map_eq_some_iff.mp he
    have alone : (x.settled nullLevel).pending = [] := by
      rcases ho.pending_settled read nullLevel with none | ⟨sign, one, -⟩
      · exact none
      · rw [closed_eq, one] at closed
        cases closed
    rw [closed_eq, alone] at closed
    have samex : x.closed = operand :=
      (settled_value alone).symm.trans (Phrase.nullity.inj closed).2
    have strong := ho.strength_settled read alone samex
    exact .nullity (ih read samex) strong.2
  | @within value items hv ne hi ihv ihi =>
    have own := (Proper.within hv ne hi).pending_read h
    obtain ⟨x, values, read, hold, he, rfl⟩ := read_within_eq_some.mp h
    have alone : (x.settled memberLevel).pending = [] := by
      rcases own with none | ⟨sign, one⟩
      · exact none
      · rw [closed_eq, one] at same
        cases same
    rw [closed_eq, alone] at same
    obtain ⟨samev, rfl⟩ := Phrase.within.inj same
    have samex : x.closed = value := (settled_value alone).symm.trans samev
    have strong := hv.strength_settled read alone samex
    exact .within (ihv read samex) (orderly_of_readAll ihi he)
      (Nat.lt_of_lt_of_le hold (Nat.le_of_eq strong.1))
  | @call function distinct arguments _ _ _ _ iha =>
    obtain ⟨v, he, rfl⟩ := Option.map_eq_some_iff.mp h
    obtain ⟨values, all, rfl⟩ := Option.map_eq_some_iff.mp he
    obtain rfl : values = arguments := (Phrase.call.inj same).2.2
    exact .call (orderly_of_readAll iha all)
  | @cast value type _ _ _ ih =>
    obtain ⟨v, he, rfl⟩ := Option.map_eq_some_iff.mp h
    obtain ⟨w, inner, rfl⟩ := Option.map_eq_some_iff.mp he
    obtain rfl : w = value := (Phrase.cast.inj same).1
    exact .cast (orderly_of_enclosed ih inner)
  | @branch condition result otherwise _ _ _ hc hr ho =>
    obtain ⟨v, he, rfl⟩ := Option.map_eq_some_iff.mp h
    obtain rfl : v = Phrase.branch condition result otherwise := same
    simp only [Option.bind_eq_bind, Option.bind_eq_some_iff] at he
    obtain ⟨c, hce, r, hre, o, hoe, he⟩ := he
    obtain ⟨rfl, rfl, rfl⟩ := Phrase.branch.inj (Option.some.inj he)
    exact .branch (orderly_of_enclosed hc hce) (orderly_of_enclosed hr hre)
      (orderly_of_enclosed ho hoe)

/-! ### Reading back -/

/-- The tokens of a phrase are read as what the phrase is read as behind nothing. -/
theorem Proper.parse_tokens (proper : phrase.Proper) :
    parse (phrase.tokens bracketed) = (phrase.read bracketed []).map (·.closed) := by
  have all := proper.reads bracketed .whole [] [] []
  rw [List.append_nil] at all
  rw [parse, all]
  cases phrase.read bracketed [] <;> rfl

/-- The text of a phrase is read back as the phrase exactly if the phrase is orderly. -/
theorem Proper.readBack_eq_some_iff (proper : phrase.Proper) :
    readBack (phrase.text bracketed) = some phrase ↔ phrase.Orderly bracketed := by
  have text : FrameQuery.tokens (phrase.text bracketed) = phrase.tokens bracketed := by
    refine Spells.tokens ?_
    rw [Phrase.text, Layout.render, String.toList_ofList]
    exact proper.spells
  have back {b : Bool} (orderly : phrase.Orderly b) :
      (phrase.read b []).map (·.closed) = some phrase := by
    obtain ⟨r, read, shows⟩ := proper.isRead orderly [] (by simp)
    rw [read, Option.map_some, shows.closed_apply, List.foldl_nil]
  rw [readBack, text, proper.parse_tokens]
  refine ⟨fun h ↦ ?_, back⟩
  cases bracketed with
  | true => exact proper.orderly
  | false =>
    obtain ⟨r, read, closed⟩ := Option.map_eq_some_iff.mp h
    exact proper.orderly_of_read read closed

end Phrase

end FrameQuery.Sql
