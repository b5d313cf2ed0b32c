import FrameQuery.Expr.Pure
import FrameQuery.Proofs.Text.Comments

/-!
# Reading quoted tokens

A reader of a quoted token starts at its opening quote and stops at the quote that closes it. Where
quotes are doubled, that is the first one that is not doubled; where a backslash makes the next
character literal, the first one without a backslash before it. Doubling can always be read back,
whatever text follows, as long as this does not begin with another quote. A backslash before each
quote can be read back exactly if the text holds no backslash of its own, which would have needed
one as well.
-/

namespace FrameQuery

namespace Quoted

/-- What a quoted token says, and what follows behind it; nothing if the token is never closed. -/
abbrev Read := Option (List Char × List Char)

/-- What is read behind characters that were read before. -/
def Read.after (said : List Char) (read : Read) : Read :=
  read.map fun (text, rest) ↦ (said ++ text, rest)

/-- Reads on between quotes, up to the first quote that is not doubled. -/
def untilUndoubled (quote : Char) : List Char → Read
  | [] => none
  | [c] => if c = quote then some ([], []) else none
  | c :: next :: rest =>
    if c = quote then
      if next = quote then (untilUndoubled quote rest).after [quote] else some ([], next :: rest)
    else (untilUndoubled quote (next :: rest)).after [c]

/-- Reads a token between quotes, the quotes inside it doubled. -/
def readDoubled (quote : Char) : List Char → Read
  | [] => none
  | c :: rest => if c = quote then untilUndoubled quote rest else none

/-- Reads on between quotes, up to the first quote without a backslash before it. -/
def untilUnescaped (quote : Char) : List Char → Read
  | [] => none
  | [c] => if c ≠ '\\' ∧ c = quote then some ([], []) else none
  | c :: next :: rest =>
    if c = '\\' then (untilUnescaped quote rest).after [next]
    else if c = quote then some ([], next :: rest)
    else (untilUnescaped quote (next :: rest)).after [c]

/-- Reads a token between quotes in which a backslash makes the next character literal. -/
def readBackslashed (quote : Char) : List Char → Read
  | [] => none
  | c :: rest => if c = quote then untilUnescaped quote rest else none

namespace Read

variable {said text rest : List Char} {read : Read}

/-- Behind nothing is read what is read. -/
theorem after_nil (read : Read) : read.after [] = read := by
  cases read <;> rfl

/-- Characters are read one after the other. -/
theorem after_cons (c : Char) (said : List Char) (read : Read) :
    read.after (c :: said) = (read.after said).after [c] := by
  cases read <;> rfl

/-- What is read behind a character is read with the character before it. -/
theorem after_singleton_eq_some {c : Char} (h : read.after [c] = some (text, rest)) :
    ∃ said, text = c :: said ∧ read = some (said, rest) := by
  cases read with
  | none => cases h
  | some read =>
    obtain ⟨rfl, rfl⟩ := Prod.mk.inj (Option.some.inj h)
    exact ⟨_, rfl, rfl⟩

/-- All that was said was said before exactly if nothing is said behind it. -/
theorem after_eq_some_iff : read.after said = some (said, rest) ↔ read = some ([], rest) := by
  cases read with
  | none => simp [after]
  | some read => simp [after, Prod.ext_iff]

end Read

/-! ### Doubled quotes -/

/-- A character that is no quote is read as it stands. -/
theorem untilUndoubled_cons_of_ne {quote c : Char} (h : c ≠ quote) (text : List Char) :
    untilUndoubled quote (c :: text) = (untilUndoubled quote text).after [c] := by
  cases text with
  | nil => simp [untilUndoubled, h, Read.after]
  | cons next rest => rw [untilUndoubled, if_neg h]

/-- A text with its quotes doubled is read as the text, whatever is read behind it. -/
theorem untilUndoubled_append (quote : Char) (s rest : List Char) :
    untilUndoubled quote (double quote s ++ rest) = (untilUndoubled quote rest).after s := by
  induction s with
  | nil => exact (Read.after_nil _).symm
  | cons c s ih =>
    rw [double_cons, List.append_assoc, Read.after_cons, ← ih]
    by_cases hc : c = quote
    · rw [if_pos hc, hc, List.cons_append, List.cons_append, List.nil_append, untilUndoubled,
        if_pos rfl, if_pos rfl]
    · rw [if_neg hc, List.singleton_append, untilUndoubled_cons_of_ne hc]

/-- A quote closes the token exactly if no other quote follows. -/
theorem untilUndoubled_quote_iff {quote : Char} {rest : List Char} :
    untilUndoubled quote (quote :: rest) = some ([], rest) ↔ rest.head? ≠ some quote := by
  cases rest with
  | nil => simp [untilUndoubled]
  | cons next rest =>
    rw [untilUndoubled, if_pos rfl, List.head?_cons, ne_eq, Option.some_inj]
    split
    · next h => cases untilUndoubled quote rest <;> simp [Read.after, h]
    · next h => simp [h]

/-- A text between doubled quotes is read back, up to its end, exactly if no other quote follows. -/
theorem readDoubled_append_iff {quote : Char} {s : String} {rest : List Char} :
    readDoubled quote ((doubled quote s).toList ++ rest) = some (s.toList, rest) ↔
      rest.head? ≠ some quote := by
  rw [doubled, String.toList_ofList, List.cons_append, readDoubled, if_pos rfl, List.append_assoc,
    List.singleton_append, untilUndoubled_append, Read.after_eq_some_iff, untilUndoubled_quote_iff]

/-! ### Quotes behind a backslash -/

/-- Escaping goes character by character. -/
theorem backslash_cons (quote c : Char) (s : List Char) :
    backslash quote (c :: s) =
      (if c = quote then ['\\', quote] else [c]) ++ backslash quote s := rfl

/-- A character behind a backslash is read as it stands. -/
theorem untilUnescaped_backslash (quote c : Char) (text : List Char) :
    untilUnescaped quote ('\\' :: c :: text) = (untilUnescaped quote text).after [c] := by
  rw [untilUnescaped, if_pos rfl]

/-- A character that is neither quote nor backslash is read as it stands. -/
theorem untilUnescaped_cons_of_ne {quote c : Char} (hq : c ≠ quote) (hb : c ≠ '\\')
    (text : List Char) :
    untilUnescaped quote (c :: text) = (untilUnescaped quote text).after [c] := by
  cases text with
  | nil => simp [untilUnescaped, hq, Read.after]
  | cons next rest => rw [untilUnescaped, if_neg hb, if_neg hq]

/-- A quote ends what is read. -/
theorem untilUnescaped_quote {quote : Char} (h : quote ≠ '\\') (rest : List Char) :
    untilUnescaped quote (quote :: rest) = some ([], rest) := by
  cases rest with
  | nil => simp [untilUnescaped, h]
  | cons next rest => rw [untilUnescaped, if_neg h, if_pos rfl]

/-- A text without backslashes, its quotes escaped, is read as the text, whatever is read behind
it. -/
theorem untilUnescaped_append {quote : Char} {s : List Char} (h : '\\' ∉ s) (rest : List Char) :
    untilUnescaped quote (backslash quote s ++ rest) = (untilUnescaped quote rest).after s := by
  induction s with
  | nil => exact (Read.after_nil _).symm
  | cons c s ih =>
    obtain ⟨hc, hs⟩ := not_or.mp (List.mem_cons.not.mp h)
    rw [backslash_cons, List.append_assoc, Read.after_cons, ← ih hs]
    by_cases hq : c = quote
    · rw [if_pos hq, hq, List.cons_append, List.cons_append, List.nil_append,
        untilUnescaped_backslash]
    · rw [if_neg hq, List.singleton_append, untilUnescaped_cons_of_ne hq (Ne.symm hc)]

/-- What follows a quoted token is shorter than the text that it is read from. -/
theorem length_lt_of_untilUnescaped {quote : Char} {input text rest : List Char}
    (h : untilUnescaped quote input = some (text, rest)) : rest.length < input.length := by
  fun_induction untilUnescaped quote input generalizing text with
  | case1 => cases h
  | case2 c hc =>
    obtain ⟨-, rfl⟩ := Prod.mk.inj (Option.some.inj h)
    exact Nat.one_pos
  | case3 => cases h
  | case4 next input ih =>
    obtain ⟨said, -, hs⟩ := Read.after_singleton_eq_some h
    exact Nat.lt_trans (ih hs) (by simp +arith)
  | case5 next input =>
    obtain ⟨-, rfl⟩ := Prod.mk.inj (Option.some.inj h)
    simp
  | case6 c next input hb hq ih =>
    obtain ⟨said, -, hs⟩ := Read.after_singleton_eq_some h
    exact Nat.lt_trans (ih hs) (by simp)

/-- A token is read to its end only if each backslash in it stands before a character of the text
that is no quote. -/
theorem untilUnescaped_behind_backslash {quote : Char} (hq : quote ≠ '\\') {s text rest : List Char}
    (h : untilUnescaped quote ('\\' :: (backslash quote s ++ quote :: rest)) =
      some (text, rest)) :
    ∃ c s' said, s = c :: s' ∧ text = c :: said ∧
      untilUnescaped quote (backslash quote s' ++ quote :: rest) = some (said, rest) := by
  cases s with
  | nil =>
    rw [backslash, List.flatMap_nil, List.nil_append, untilUnescaped_backslash] at h
    obtain ⟨said, -, hs⟩ := Read.after_singleton_eq_some h
    exact absurd (length_lt_of_untilUnescaped hs) (Nat.lt_irrefl _)
  | cons c s =>
    rw [backslash_cons] at h
    by_cases hc : c = quote
    · -- the two backslashes are read as one, and the quote behind them closes the token
      rw [if_pos hc, List.append_assoc, List.cons_append, untilUnescaped_backslash] at h
      obtain ⟨said, -, hs⟩ := Read.after_singleton_eq_some h
      rw [List.cons_append, List.nil_append, untilUnescaped_quote hq] at hs
      have same := congrArg List.length (Prod.mk.inj (Option.some.inj hs)).2
      rw [List.length_append, List.length_cons] at same
      omega
    · rw [if_neg hc, List.singleton_append, List.cons_append, untilUnescaped_backslash] at h
      obtain ⟨said, rfl, hs⟩ := Read.after_singleton_eq_some h
      exact ⟨c, s, said, rfl, rfl, hs⟩

/-- What is read up to the end of a token is no longer than the text that was put between its
quotes, and shorter if that text holds a backslash, which is lost. -/
theorem length_of_untilUnescaped {quote : Char} (hq : quote ≠ '\\') {rest : List Char} :
    ∀ {s text : List Char},
      untilUnescaped quote (backslash quote s ++ quote :: rest) = some (text, rest) →
      text.length ≤ s.length ∧ ('\\' ∈ s → text.length < s.length)
  | [], text, h => by
    rw [backslash, List.flatMap_nil, List.nil_append, untilUnescaped_quote hq] at h
    obtain ⟨rfl, -⟩ := Prod.mk.inj (Option.some.inj h)
    simp
  | c :: s, text, h => by
    rw [backslash_cons] at h
    by_cases hb : c = '\\'
    · have hc : c ≠ quote := hb ▸ Ne.symm hq
      rw [if_neg hc, hb] at h
      obtain ⟨d, s, said, rfl, rfl, hs⟩ := untilUnescaped_behind_backslash hq h
      obtain ⟨le, -⟩ := length_of_untilUnescaped hq hs
      have lost : said.length + 1 < s.length + 1 + 1 := by omega
      exact ⟨Nat.le_of_lt lost, fun _ ↦ lost⟩
    · have other : '\\' ≠ c := Ne.symm hb
      have first : ∃ said, text = c :: said ∧
          untilUnescaped quote (backslash quote s ++ quote :: rest) = some (said, rest) := by
        by_cases hc : c = quote
        · rw [if_pos hc, List.append_assoc, List.cons_append, List.cons_append, List.nil_append,
            untilUnescaped_backslash, ← hc] at h
          exact hc ▸ Read.after_singleton_eq_some h
        · rw [if_neg hc, List.singleton_append, List.cons_append,
            untilUnescaped_cons_of_ne hc hb] at h
          exact Read.after_singleton_eq_some h
      obtain ⟨said, rfl, hs⟩ := first
      obtain ⟨le, lt⟩ := length_of_untilUnescaped hq hs
      rw [List.mem_cons, or_iff_right other]
      exact ⟨Nat.succ_le_succ le, fun hm ↦ Nat.succ_lt_succ (lt hm)⟩
termination_by s => s.length

/-- A text between quotes with a backslash before each quote is read back, up to its end, exactly if
it holds no backslash. -/
theorem readBackslashed_append_iff {quote : Char} (hq : quote ≠ '\\') {s : String}
    {rest : List Char} :
    readBackslashed quote ((backslashed quote s).toList ++ rest) = some (s.toList, rest) ↔
      '\\' ∉ s.toList := by
  rw [backslashed, String.toList_ofList, List.cons_append, readBackslashed, if_pos rfl,
    List.append_assoc, List.singleton_append]
  constructor
  · intro h hm
    exact Nat.lt_irrefl _ ((length_of_untilUnescaped hq h).2 hm)
  · intro h
    rw [untilUnescaped_append h, Read.after_eq_some_iff, untilUnescaped_quote hq]

end Quoted

/-! ### Tokens of the two languages -/

/-- Quoted identifiers of a dialect and texts between single quotes are read back to their end,
exactly if no other quote follows; so distinct names have distinct quoted texts. -/
theorem Sql.Dialect.readDoubled_iff (d : Sql.Dialect) (layout : Layout) (s : String)
    (rest : List Char) :
    (Quoted.readDoubled d.quote ((d.quoted s).toList ++ rest) = some (s.toList, rest) ↔
        rest.head? ≠ some d.quote) ∧
      (Quoted.readDoubled '\'' (layout.chars (d.literalDoc (.string s false)) ++ rest) =
          some (s.toList, rest) ↔ rest.head? ≠ some '\'') ∧
      ∀ t, d.quoted s = d.quoted t ↔ s = t := by
  refine ⟨Quoted.readDoubled_append_iff, ?_, fun t ↦ ⟨fun h ↦ ?_, congrArg d.quoted⟩⟩
  · rw [literalDoc, Layout.chars_text]
    exact Quoted.readDoubled_append_iff
  · have alone (name : String) :
        Quoted.readDoubled d.quote ((d.quoted name).toList ++ []) = some (name.toList, []) :=
      Quoted.readDoubled_append_iff.mpr nofun
    have same := (alone s).symm.trans ((congrArg _ (by rw [h])).trans (alone t))
    exact String.toList_injective (Prod.mk.inj (Option.some.inj same)).1

/-- Texts, and column names that are no identifiers, are read back to their end, whatever follows
them, exactly if they hold no backslash. -/
theorem PureText.readBackslashed_iff (layout : Layout) (s : String) (rest : List Char) :
    (Quoted.readBackslashed '\'' (layout.chars (Constant.string s).toPure ++ rest) =
        some (s.toList, rest) ↔ '\\' ∉ s.toList) ∧
      (Identifier.isIdentifier s = false →
        (Quoted.readBackslashed '\'' ((columnName s).toList ++ rest) = some (s.toList, rest) ↔
          '\\' ∉ s.toList)) := by
  have quote : '\'' ≠ '\\' := by decide
  constructor
  · rw [Constant.toPure, Layout.chars_text]
    exact Quoted.readBackslashed_append_iff quote
  · intro h
    rw [columnName, if_neg (by simp [h])]
    exact Quoted.readBackslashed_append_iff quote

/-- A name with quotes of both kinds, before a comma. -/
theorem PureText.readBackslashed_iff_of_name :
    Identifier.isIdentifier "it's \"q\"" = false ∧
      Quoted.readBackslashed '\'' ((columnName "it's \"q\"").toList ++ [',']) =
        some ("it's \"q\"".toList, [',']) := by
  have name : Identifier.isIdentifier "it's \"q\"" = false := by decide
  exact ⟨name, ((PureText.readBackslashed_iff ⟨false, 2, 0⟩ _ _).2 name).mpr (by decide)⟩

/-- A backslash at the end of a text leaves the token open; before a quote it closes the token, and
the rest of the text is read as part of the query. -/
theorem PureText.exists_open_token :
    (∃ s, stringText s = "'\\'" ∧ columnName s = stringText s ∧
        Quoted.readBackslashed '\'' (stringText s).toList = none) ∧
      ∃ s, stringText s = "'\\\\' + $r.x'" ∧
        Quoted.readBackslashed '\'' (stringText s).toList = some (['\\'], " + $r.x'".toList) :=
  ⟨⟨"\\", by decide, by decide, by decide⟩, ⟨"\\' + $r.x", by decide, by decide⟩⟩

end FrameQuery
