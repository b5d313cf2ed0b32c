import FrameQuery.Expr.Sql
import FrameQuery.Proofs.Expr.Built
import FrameQuery.Proofs.Expr.Written
import Mathlib.Data.List.Infix

/-!
# Patterns of texts

A pattern of `LIKE` is matched against a whole text. In it a percent sign stands for any characters,
an underscore for any one character, and a backslash makes the character behind it literal. A text
whose wildcards are escaped stands for itself alone, so that the patterns made of it accept exactly
what starts with it, ends with it or contains it, as long as the text holds no backslash. A
backslash is not escaped: it is read together with what follows it, and the pattern accepts another
text that is no longer than the one it was made of, or it accepts nothing.
-/

namespace FrameQuery

/-! ### Matching -/

/-- What a pattern is made of. -/
inductive PatternPart where
  | anything
  | single
  | literal (c : Char)
  deriving DecidableEq, Repr

namespace PatternPart

/-- What a character of a pattern stands for without a backslash before it. -/
def ofChar (c : Char) : PatternPart :=
  if c = '%' then anything else if c = '_' then single else literal c

/-- The parts of a pattern. A backslash at the end has no character to make literal, and such a
pattern has no meaning. -/
def read : List Char → Option (List PatternPart)
  | [] => some []
  | [c] => if c = '\\' then none else some [ofChar c]
  | c :: next :: rest =>
    if c = '\\' then (read rest).map (literal next :: ·)
    else (read (next :: rest)).map (ofChar c :: ·)

/-- Whether a text is made of parts of a pattern, one after the other. -/
def accepts : List PatternPart → List Char → Bool
  | [], text => text.isEmpty
  | anything :: parts, text => text.tails.any (accepts parts)
  | single :: parts, text => text.head?.isSome && accepts parts text.tail
  | literal c :: parts, text => text.head? == some c && accepts parts text.tail

variable {parts : List PatternPart} {text part : List Char} {c : Char}

/-- Behind any characters the rest of a text is made of the other parts. -/
theorem accepts_anything : accepts (anything :: parts) text = true ↔
    ∃ rest, rest <:+ text ∧ accepts parts rest = true := by
  simp [accepts]

/-- Nothing else is asked of what stands behind. -/
theorem accepts_whatever (text : List Char) : accepts [anything] text = true :=
  accepts_anything.mpr ⟨[], List.nil_suffix, rfl⟩

/-- Literal characters are what a text starts with. -/
theorem accepts_literals : accepts (part.map literal ++ parts) text = true ↔
    ∃ rest, text = part ++ rest ∧ accepts parts rest = true := by
  induction part generalizing text with
  | nil => simp
  | cons c part ih =>
    rw [List.map_cons, List.cons_append, accepts, Bool.and_eq_true, beq_iff_eq, ih]
    constructor
    · rintro ⟨first, rest, split, accepted⟩
      refine ⟨rest, ?_, accepted⟩
      rw [List.cons_append, ← split]
      exact (List.cons_head?_tail first).symm
    · rintro ⟨rest, rfl, accepted⟩
      exact ⟨rfl, rest, rfl, accepted⟩

/-- A text that parts accept, in which nothing stands for any characters. -/
def leastText : List PatternPart → List Char
  | [] => []
  | anything :: parts => leastText parts
  | single :: parts => ' ' :: leastText parts
  | literal c :: parts => c :: leastText parts

/-- Parts accept the text in which nothing stands for any characters. -/
theorem accepts_leastText (parts : List PatternPart) : accepts parts (leastText parts) = true := by
  induction parts with
  | nil => rfl
  | cons first parts ih =>
    cases first with
    | anything => exact accepts_anything.mpr ⟨_, List.suffix_rfl, ih⟩
    | single => simpa [accepts, leastText] using ih
    | literal c => simpa [accepts, leastText] using ih

/-- A backslash and the character behind it are read as that character. -/
theorem read_backslash (next : Char) (rest : List Char) :
    read ('\\' :: next :: rest) = (read rest).map (literal next :: ·) := by
  rw [read, if_pos rfl]

/-- A character other than a backslash is read alone. -/
theorem read_cons (other : c ≠ '\\') (rest : List Char) :
    read (c :: rest) = (read rest).map (ofChar c :: ·) := by
  cases rest with
  | nil => simp [read, other]
  | cons next rest => rw [read, if_neg other]

end PatternPart

namespace LikeKind

open PatternPart (accepts accepts_anything accepts_leastText accepts_literals accepts_whatever
  leastText literal read_backslash read_cons)

/-- Whether a text is like a pattern. -/
def likes (pattern text : String) : Bool :=
  (PatternPart.read pattern.toList).any (accepts · text.toList)

/-- What is asked of a text by asking whether another one stands in it. -/
def Holds (kind : LikeKind) (part text : String) : Prop :=
  match kind with
  | startsWith => part.toList <+: text.toList
  | endsWith => part.toList <:+ text.toList
  | contains => part.toList <:+: text.toList

/-! ### Escaped texts -/

variable {part behind : List Char} {c : Char}

/-- Wildcards are escaped one by one. -/
theorem escape_cons (c : Char) (part : List Char) :
    escape (c :: part) = (if c = '_' ∨ c = '%' then ['\\', c] else [c]) ++ escape part := rfl

/-- A character other than a backslash stands for itself once it is escaped. -/
theorem read_escape_cons (other : c ≠ '\\') :
    PatternPart.read (escape (c :: part) ++ behind) =
      (PatternPart.read (escape part ++ behind)).map (literal c :: ·) := by
  rw [escape_cons, List.append_assoc]
  by_cases wildcard : c = '_' ∨ c = '%'
  · rw [if_pos wildcard]
    exact read_backslash c _
  · rw [if_neg wildcard, List.singleton_append, read_cons other]
    obtain ⟨single, anything⟩ := not_or.mp wildcard
    rw [PatternPart.ofChar, if_neg anything, if_neg single]

/-- A text without a backslash stands for itself once its wildcards are escaped. -/
theorem read_escape (plain : '\\' ∉ part) :
    PatternPart.read (escape part ++ behind) =
      (PatternPart.read behind).map (part.map literal ++ ·) := by
  induction part with
  | nil => simp [escape]
  | cons c part ih =>
    obtain ⟨other, plain⟩ := not_or.mp (List.mem_cons.not.mp plain)
    rw [read_escape_cons (Ne.symm other), ih plain, Option.map_map]
    rfl

/-- The pattern of a text without a backslash accepts what the text stands in as asked. -/
theorem likes_pattern_iff {part : String} (plain : '\\' ∉ part.toList) (kind : LikeKind)
    (text : String) : likes (kind.pattern part) text = true ↔ kind.Holds part text := by
  cases kind with
  | startsWith =>
    have parts : PatternPart.read (pattern .startsWith part).toList =
        some (part.toList.map literal ++ [.anything]) := by
      rw [pattern, String.toList_ofList, read_escape plain]
      rfl
    rw [likes, parts, Option.any_some, accepts_literals, Holds]
    constructor
    · rintro ⟨rest, split, -⟩
      exact ⟨rest, split.symm⟩
    · rintro ⟨rest, split⟩
      exact ⟨rest, split.symm, accepts_whatever rest⟩
  | endsWith =>
    have parts : PatternPart.read (pattern .endsWith part).toList =
        some (.anything :: (part.toList.map literal ++ [])) := by
      rw [pattern, String.toList_ofList, read_cons (by decide), ← List.append_nil (escape _),
        read_escape plain]
      rfl
    rw [likes, parts, Option.any_some, accepts_anything, Holds]
    constructor
    · rintro ⟨_, suffix, accepted⟩
      obtain ⟨rest, rfl, empty⟩ := accepts_literals.mp accepted
      rwa [List.isEmpty_iff.mp empty, List.append_nil] at suffix
    · intro suffix
      exact ⟨_, suffix, accepts_literals.mpr ⟨[], (List.append_nil _).symm, rfl⟩⟩
  | contains =>
    have parts : PatternPart.read (pattern .contains part).toList =
        some (.anything :: (part.toList.map literal ++ [.anything])) := by
      rw [pattern, String.toList_ofList, read_cons (by decide), read_escape plain]
      rfl
    rw [likes, parts, Option.any_some, accepts_anything, Holds, List.infix_iff_prefix_suffix]
    constructor
    · rintro ⟨rest, suffix, accepted⟩
      obtain ⟨behind, split, -⟩ := accepts_literals.mp accepted
      exact ⟨rest, ⟨behind, split.symm⟩, suffix⟩
    · rintro ⟨rest, ⟨behind, split⟩, suffix⟩
      exact ⟨rest, suffix, accepts_literals.mpr ⟨behind, split.symm, accepts_whatever behind⟩⟩

/-! ### Backslashes -/

/-- A backslash that is not escaped is read together with the character behind it, or with the
backslash that escapes it. -/
theorem read_escape_backslash : PatternPart.read (escape ('\\' :: c :: part) ++ behind) =
    (PatternPart.read (escape part ++ behind)).map
      fun parts ↦ if c = '_' ∨ c = '%' then literal '\\' :: .ofChar c :: parts
        else literal c :: parts := by
  rw [escape_cons, if_neg (by decide), escape_cons]
  by_cases wildcard : c = '_' ∨ c = '%'
  · have other : c ≠ '\\' := by
      rintro rfl
      revert wildcard
      decide
    simp only [if_pos wildcard, List.cons_append, List.nil_append]
    rw [read_backslash, read_cons other, Option.map_map]
    rfl
  · simp only [if_neg wildcard, List.cons_append, List.nil_append]
    exact read_backslash c _

/-- The pattern made of a text accepts a text that is no longer, and another one if there is a
backslash in the text. -/
def Understates (behind part : List Char) : Prop :=
  ∀ parts, PatternPart.read (escape part ++ behind) = some parts →
    (leastText parts).length ≤ part.length ∧ ('\\' ∈ part → leastText parts ≠ part)

/-- An empty text is understated by what a pattern ends with. -/
theorem understates_nil (short : behind = [] ∨ behind = ['%']) : Understates behind [] := by
  intro parts h
  cases short with
  | inl empty =>
    rw [empty] at h
    obtain rfl := Option.some.inj h
    exact ⟨le_rfl, nofun⟩
  | inr percent =>
    rw [percent] at h
    obtain rfl := Option.some.inj h
    exact ⟨le_rfl, nofun⟩

/-- A character that is no backslash stands for itself, whatever follows it. -/
theorem Understates.cons (other : c ≠ '\\') (ih : Understates behind part) :
    Understates behind (c :: part) := by
  intro parts h
  rw [read_escape_cons other] at h
  obtain ⟨rest, inner, rfl⟩ := Option.map_eq_some_iff.mp h
  obtain ⟨length, differs⟩ := ih rest inner
  refine ⟨Nat.succ_le_succ length, fun backslash same ↦ ?_⟩
  exact differs (List.mem_of_ne_of_mem other.symm backslash) (List.cons.inj same).2

/-- A backslash at the end makes the percent sign behind it literal, if there is one. -/
theorem understates_backslash (short : behind = [] ∨ behind = ['%']) :
    Understates behind ['\\'] := by
  intro parts h
  cases short with
  | inl empty =>
    rw [empty] at h
    cases h
  | inr percent =>
    rw [percent] at h
    obtain rfl := Option.some.inj h
    exact ⟨le_rfl, fun _ ↦ by decide⟩

/-- A backslash makes the character behind it literal and is lost, or it stays and the wildcard
behind it is one. -/
theorem Understates.backslash (ih : Understates behind part) :
    Understates behind ('\\' :: c :: part) := by
  intro parts h
  rw [read_escape_backslash] at h
  obtain ⟨rest, inner, rfl⟩ := Option.map_eq_some_iff.mp h
  have length := (ih rest inner).1
  by_cases single : c = '_'
  · obtain rfl := single
    refine ⟨Nat.succ_le_succ (Nat.succ_le_succ length), fun _ same ↦ ?_⟩
    exact absurd (List.cons.inj (List.cons.inj same).2).1 (by decide)
  -- in the other cases one character fewer is left
  have shorter : (leastText (if c = '_' ∨ c = '%' then literal '\\' :: .ofChar c :: rest
      else literal c :: rest)).length < part.length + 2 := by
    by_cases anything : c = '%'
    · obtain rfl := anything
      exact Nat.succ_lt_succ (Nat.lt_succ_of_le length)
    · rw [if_neg (not_or.mpr ⟨single, anything⟩)]
      exact Nat.succ_lt_succ (Nat.lt_succ_of_le length)
  exact ⟨shorter.le, fun _ same ↦ shorter.ne (congrArg List.length same)⟩

/-- Every pattern made of a text understates it. -/
theorem understates (short : behind = [] ∨ behind = ['%']) (part : List Char) :
    Understates behind part := by
  induction part using List.twoStepInduction with
  | nil => exact understates_nil short
  | singleton c =>
    by_cases backslash : c = '\\'
    · rw [backslash]
      exact understates_backslash short
    · exact (understates_nil short).cons backslash
  | cons_cons c next rest ih₂ ih₁ =>
    by_cases backslash : c = '\\'
    · rw [backslash]
      exact ih₂.backslash
    · exact (ih₁ next).cons backslash

/-- A pattern understates the text it was made of. -/
theorem leastText_of_read {kind : LikeKind} {part : String} {parts : List PatternPart}
    (h : PatternPart.read (kind.pattern part).toList = some parts) :
    (leastText parts).length ≤ part.toList.length ∧
      ('\\' ∈ part.toList → leastText parts ≠ part.toList) := by
  cases kind with
  | startsWith =>
    rw [pattern, String.toList_ofList] at h
    exact understates (.inr rfl) _ _ h
  | endsWith =>
    rw [pattern, String.toList_ofList, read_cons (by decide), ← List.append_nil (escape _)] at h
    obtain ⟨rest, inner, rfl⟩ := Option.map_eq_some_iff.mp h
    exact understates (.inl rfl) _ rest inner
  | contains =>
    rw [pattern, String.toList_ofList, read_cons (by decide)] at h
    obtain ⟨rest, inner, rfl⟩ := Option.map_eq_some_iff.mp h
    exact understates (.inr rfl) _ rest inner

/-- A text stands in itself at the start, at the end and somewhere. -/
theorem holds_refl (kind : LikeKind) (part : String) : kind.Holds part part := by
  cases kind with
  | startsWith => exact List.prefix_rfl
  | endsWith => exact List.suffix_rfl
  | contains => exact List.infix_rfl

/-- A text is longer than what stands in it, or both are the same. -/
theorem Holds.eq_of_length_le {kind : LikeKind} {part text : String} (h : kind.Holds part text)
    (length : text.toList.length ≤ part.toList.length) : text.toList = part.toList := by
  have inside : part.toList <:+: text.toList := by
    cases kind with
    | startsWith => exact List.IsPrefix.isInfix h
    | endsWith => exact List.IsSuffix.isInfix h
    | contains => exact h
  exact (inside.eq_of_length_le length).symm

/-- The pattern of a text means what is asked, for all texts, if and only if there is no backslash
in the text. -/
theorem likes_pattern_iff_holds_iff (kind : LikeKind) (part : String) :
    (∀ text, likes (kind.pattern part) text = true ↔ kind.Holds part text) ↔
      '\\' ∉ part.toList := by
  refine ⟨fun means backslash ↦ ?_, fun plain ↦ likes_pattern_iff plain kind⟩
  obtain ⟨parts, read, -⟩ : ∃ parts, PatternPart.read (kind.pattern part).toList = some parts ∧
      accepts parts part.toList = true :=
    (Option.any_eq_true _ _).mp ((means part).mpr (holds_refl kind part))
  obtain ⟨length, differs⟩ := leastText_of_read read
  have liked : likes (kind.pattern part) (String.ofList (leastText parts)) = true := by
    rw [likes, read, Option.any_some, String.toList_ofList]
    exact accepts_leastText parts
  have same := ((means _).mp liked).eq_of_length_le (by rwa [String.toList_ofList])
  rw [String.toList_ofList] at same
  exact differs backslash same

end LikeKind

/-! ### Conditions on texts -/

namespace TypedExpr

variable {p : TypedExpr} {scope : Scope} {x : Sql.Expression}

/-- Whether a text starts with, ends with or contains another one can be asked of every text, and is
asked in SQL by matching it against a pattern. The answers are the right ones, whatever the text, if
and only if the other one holds no backslash. -/
theorem like_answers_iff (typed : p.type = .string) (written : p.expr.toSql scope = .ok x)
    (kind : LikeKind) (part : String) : ∃ condition, p.like kind part = .ok condition ∧
      condition.expr.toSql scope =
        .ok (.extension (.stringLike x (.string (kind.pattern part)))) ∧
      ((∀ text, LikeKind.likes (kind.pattern part) text = true ↔ kind.Holds part text) ↔
        '\\' ∉ part.toList) := by
  refine ⟨⟨.boolean, .unary (.like kind part) p.expr⟩, ?_, ?_, ?_⟩
  · exact apply_eq_ok.mpr ⟨by rw [typed]; rfl, rfl⟩
  · exact Expr.toSql_unary_eq_ok.mpr ⟨x, written, rfl⟩
  · exact LikeKind.likes_pattern_iff_holds_iff kind part

private def nameRow : Row := { var := .right, columns := [{ name := "name", type := .string }] }

private def nameColumn : Sql.Expression := .column ["\"root\"", "\"name\""]

private def nameScope : Scope :=
  .single {} (.plain [.column (some "\"name\"") nameColumn] [])

/-- A percent sign in what is asked for stands for itself. -/
theorem like_answers_of_percent : ∃ name condition, nameRow.get "name" = .ok name ∧
    name.like .contains "0%" = .ok condition ∧
      condition.expr.toSql nameScope =
        .ok (.extension (.stringLike nameColumn (.string "%0\\%%"))) ∧
      ∀ text, LikeKind.likes "%0\\%%" text = true ↔ LikeKind.contains.Holds "0%" text := by
  have pattern : LikeKind.contains.pattern "0%" = "%0\\%%" := by decide
  have column : (Expr.column .right "name" none).toSql nameScope = .ok nameColumn := rfl
  obtain ⟨condition, built, written, answers⟩ :=
    like_answers_iff (p := ⟨.string, .column .right "name" none⟩) rfl column .contains "0%"
  rw [pattern] at written answers
  exact ⟨_, condition, rfl, built, written, answers.mpr (by decide)⟩

/-- The pattern of the texts that start with a backslash accepts a percent sign, and no text that
starts with a backslash. -/
theorem exists_like_answer_wrong : ∃ name condition, nameRow.get "name" = .ok name ∧
    name.like .startsWith "\\" = .ok condition ∧
      condition.expr.toSql nameScope =
        .ok (.extension (.stringLike nameColumn (.string "\\%"))) ∧
      (¬LikeKind.startsWith.Holds "\\" "%" ∧ LikeKind.likes "\\%" "%" = true) ∧
      LikeKind.startsWith.Holds "\\" "\\" ∧ LikeKind.likes "\\%" "\\" = false := by
  have other : ¬LikeKind.startsWith.Holds "\\" "%" := by
    show ¬ ['\\'] <+: ['%']
    decide
  exact ⟨_, _, rfl, rfl, rfl, ⟨other, by decide⟩, List.prefix_rfl, by decide⟩

end TypedExpr
end FrameQuery
