import FrameQuery.Proofs.Number.Reading
import FrameQuery.Proofs.Outcome
import FrameQuery.Proofs.Text.Blank
import FrameQuery.Types.Reading

/-!
# How precise types are spelled

A precise type is spelled by its name and, if it has numbers, by these between parentheses, with
commas between them. Blanks may stand around the name and around each number, and a number may have
a plus sign and zeros in front. Exactly the spellings of a type are read as the type, unless a
decimal type would have more places than digits, and its text is one of them.
-/

namespace FrameQuery.PreciseType

/-- A decimal type has no more decimal places than digits. -/
def WellScaled : PreciseType → Prop
  | .numeric precision scale => scale ≤ precision
  | _ => True

/-- A number of a type with blanks around it. -/
def NumberSpelling (n : UInt32) (s : List Char) : Prop :=
  ∃ numeral, Reading.Unsigned n.toNat numeral ∧ Blank.Pads s numeral

/-- The texts that name a type. -/
inductive Spelling (type : PreciseType) : List Char → Prop
  | bare {name : List Char} (plain : type.arguments = []) (hn : Blank.Pads name type.head.toList) :
    Spelling type name
  | applied {name : List Char} {parts : List (List Char)} (ne : type.arguments ≠ [])
    (hn : Blank.Pads name type.head.toList)
    (hp : List.Forall₂ NumberSpelling type.arguments parts) :
    Spelling type (name ++ '(' :: ([','].intercalate parts ++ [')']))

/-! ### Numbers between commas -/

/-- The characters of numbers are neither blank nor commas. -/
private theorem solid_numeral {n : Nat} {numeral : List Char} (h : Reading.Unsigned n numeral) :
    ∀ c ∈ numeral, Blank.isBlank c = false ∧ c ≠ ',' := by
  have digit {c : Char} (h : c.isDigit = true) : Blank.isBlank c = false ∧ c ≠ ',' := by
    have bounds : 48 ≤ c.toNat ∧ c.toNat ≤ 57 := Char.isDigit_iff_toNat.mp h
    constructor
    · simp [Blank.isBlank, Blank.blanks, CodePoints.contains, CodePoints.holds]
      omega
    · rintro rfl
      exact absurd h (by decide)
  cases h with
  | plain digits =>
    intro c hc
    exact digit (digits.all c hc)
  | signed digits =>
    intro c hc
    rcases List.mem_cons.mp hc with rfl | hc
    · decide
    · exact digit (digits.all c hc)

/-- A part of a text is read as a number exactly if it spells the number. -/
theorem uint32_trim_eq_some_iff {n : UInt32} {s : List Char} :
    Reading.uint32 (Blank.trim s) = some n ↔ NumberSpelling n s := by
  rw [Reading.uint32_eq_some_iff]
  constructor
  · intro h
    exact ⟨Blank.trim s, h, Blank.pads_trim s⟩
  · rintro ⟨numeral, h, pads⟩
    rw [(Blank.trim_eq_iff fun c hc ↦ (solid_numeral h c hc).1).mpr pads]
    exact h

/-- No comma stands in a spelling of a number. -/
private theorem NumberSpelling.not_mem {n : UInt32} {s : List Char} (h : NumberSpelling n s) :
    ',' ∉ s := by
  obtain ⟨numeral, hn, before, after, hb, ha, rfl⟩ := h
  have solid : Blank.isBlank ',' = false := by decide
  simp only [List.mem_append, not_or]
  refine ⟨⟨?_, ?_⟩, ?_⟩
  · intro hc
    exact absurd (hb _ hc) (by simp [solid])
  · intro hc
    exact (solid_numeral hn _ hc).2 rfl
  · intro hc
    exact absurd (ha _ hc) (by simp [solid])

/-- Parting a text at its commas. -/
private theorem splitCommas_eq (s : List Char) : splitCommas s = s.splitOn ',' := by
  induction s with
  | nil => rw [splitCommas, List.splitOn_nil]
  | cons c s ih =>
    rw [splitCommas, List.splitOn_cons_eq_if_modifyHead, ih]
    by_cases comma : c = ','
    · simp [comma]
    · obtain ⟨part, parts, he⟩ := List.exists_cons_of_ne_nil (List.splitOn_ne_nil ',' s)
      simp [comma, he]

/-- Numbers are read from between parentheses exactly if they are spelled there. -/
theorem numbers_eq_some_iff {s : List Char} {ns : List UInt32} : numbers s = some ns ↔
    ns ≠ [] ∧ ∃ parts, List.Forall₂ NumberSpelling ns parts ∧
      s = [','].intercalate parts ++ [')'] := by
  rw [numbers]
  constructor
  · intro h
    split at h
    · next last =>
      rw [mapM_eq_some] at h
      have ne : ns ≠ [] := by
        rintro rfl
        rw [List.forall₂_nil_right_iff, splitCommas_eq] at h
        exact List.splitOn_ne_nil _ _ h
      refine ⟨ne, splitCommas s.dropLast, ?_, ?_⟩
      · exact List.Forall₂.flip (h.imp fun part n hn ↦ uint32_trim_eq_some_iff.mp hn)
      · rw [splitCommas_eq, List.intercalate_splitOn]
        obtain ⟨front, rfl⟩ := List.getLast?_eq_some_iff.mp last
        rw [List.dropLast_concat]
    · cases h
  · rintro ⟨ne, parts, spelled, rfl⟩
    have apart : ∀ part ∈ parts, ',' ∉ part := by
      intro part hp
      obtain ⟨n, -, hn⟩ := Outcome.exists_of_mem_right spelled hp
      exact hn.not_mem
    have filled : parts ≠ [] := by
      rintro rfl
      exact ne (List.forall₂_nil_right_iff.mp spelled)
    rw [if_pos List.getLast?_concat, List.dropLast_concat, splitCommas_eq,
      List.splitOn_intercalate ',' apart filled, mapM_eq_some]
    exact List.Forall₂.flip (spelled.imp fun n part hn ↦ uint32_trim_eq_some_iff.mpr hn)

/-! ### Names -/

/-- No blank and no parenthesis stands in the name of a type. -/
private theorem solid_head (type : PreciseType) :
    ∀ c ∈ type.head.toList, Blank.isBlank c = false ∧ c ≠ '(' := by
  have all : (type.head.toList.all fun c ↦ !Blank.isBlank c && c != '(') = true := by
    cases type <;> simp only [head] <;> decide
  intro c hc
  have apart := List.all_eq_true.mp all c hc
  rwa [Bool.and_eq_true, Bool.not_eq_true', bne_iff_ne] at apart

/-- No parenthesis stands in front of the numbers. -/
private theorem not_mem_of_pads {type : PreciseType} {name : List Char}
    (h : Blank.Pads name type.head.toList) : ∀ c ∈ name, (c != '(') = true := by
  obtain ⟨before, after, hb, ha, rfl⟩ := h
  have solid : Blank.isBlank '(' = false := by decide
  have blank {c : Char} (h : Blank.isBlank c = true) : (c != '(') = true := by
    rw [bne_iff_ne]
    rintro rfl
    rw [solid] at h
    cases h
  intro c hc
  rcases List.mem_append.mp hc with hc | hc
  · rcases List.mem_append.mp hc with hc | hc
    · exact blank (hb c hc)
    · exact bne_iff_ne.mpr (solid_head type c hc).2
  · exact blank (ha c hc)

/-- A text is parted into the name and the numbers of a type exactly if it spells the type. -/
theorem parts_eq_some_iff {s : List Char} {type : PreciseType} :
    parts s = some (type.head, type.arguments) ↔ type.Spelling s := by
  have named {name : List Char} : String.ofList (Blank.trim name) = type.head ↔
      Blank.Pads name type.head.toList := by
    rw [← Blank.trim_eq_iff fun c hc ↦ (solid_head type c hc).1, ← String.toList_inj,
      String.toList_ofList]
  constructor
  · intro h
    have whole := List.takeWhile_append_dropWhile (p := (· != '(')) (l := s)
    rw [parts] at h
    split at h
    · next none =>
      obtain ⟨name, plain⟩ := Prod.mk.inj (Option.some.inj h)
      rw [none, List.append_nil] at whole
      rw [← whole]
      exact .bare plain.symm (named.mp name)
    · next c rest he =>
      obtain ⟨ns, read, h⟩ := Option.map_eq_some_iff.mp h
      obtain ⟨name, rfl⟩ := Prod.mk.inj h
      obtain ⟨ne, parts, spelled, rfl⟩ := numbers_eq_some_iff.mp read
      have opening : c = '(' := by
        have stopped := List.head?_dropWhile_not (· != '(') s
        rw [he] at stopped
        simpa using stopped
      rw [← whole, he, opening]
      exact .applied ne (named.mp name) spelled
  · intro h
    cases h with
    | bare plain hn =>
      have all := not_mem_of_pads hn
      rw [parts, List.takeWhile_eq_self_iff.mpr all, List.dropWhile_eq_nil_iff.mpr all,
        named.mpr hn, plain]
    | @applied name parts ne hn hp =>
      have all := not_mem_of_pads hn
      rw [PreciseType.parts, List.takeWhile_append_of_pos all, List.dropWhile_append_of_pos all,
        List.takeWhile_cons_of_neg (by decide), List.dropWhile_cons_of_neg (by decide),
        List.append_nil, named.mpr hn]
      exact Option.map_eq_some_iff.mpr
        ⟨_, numbers_eq_some_iff.mpr ⟨ne, parts, hp, rfl⟩, rfl⟩

/-! ### Types -/

/-- A type that is named without numbers has this name, no numbers and no decimal places. -/
private theorem of_ofName? {name : String} {type : PreciseType} (h : ofName? name = some type) :
    type.head = name ∧ type.arguments = [] ∧ type.WellScaled := by
  unfold ofName? at h
  split at h <;> first | (obtain rfl := Option.some.inj h; exact ⟨rfl, rfl, trivial⟩) | cases h

/-- A text is read as a type exactly if its parts are those of the type. -/
private theorem ofText_eq_ok_iff_parts {text : String} {type : PreciseType} :
    ofText text = .ok type ↔
      parts text.toList = some (type.head, type.arguments) ∧ type.WellScaled := by
  constructor
  · intro h
    rw [ofText] at h
    split at h
    · next name he =>
      split at h
      · next named =>
        obtain rfl := Except.ok.inj h
        obtain ⟨rfl, plain, scaled⟩ := of_ofName? named
        rw [plain]
        exact ⟨he, scaled⟩
      · exact absurd h Outcome.fail_ne_ok
    · next he =>
      obtain rfl := Except.ok.inj h
      exact ⟨he, trivial⟩
    · next precision scale he =>
      obtain ⟨_, scaled, h⟩ := Outcome.bind_eq_ok.mp h
      obtain rfl := Outcome.pure_eq_ok.mp h
      have scaled : scale ≤ precision := of_decide_eq_true (Outcome.require_eq_ok.mp scaled)
      exact ⟨he, scaled⟩
    · exact absurd h Outcome.fail_ne_ok
  · rintro ⟨he, scaled⟩
    rw [ofText, he]
    cases type with
    | varchar length => cases length <;> rfl
    | numeric precision scale =>
      have scaled : scale ≤ precision := scaled
      exact Outcome.bind_eq_ok.mpr
        ⟨(), Outcome.require_eq_ok.mpr (decide_eq_true scaled), rfl⟩
    | _ => rfl

/-- Exactly the spellings of a type are read as the type, if it is well scaled. -/
theorem ofText_eq_ok_iff {text : String} {type : PreciseType} :
    ofText text = .ok type ↔ type.Spelling text.toList ∧ type.WellScaled := by
  rw [ofText_eq_ok_iff_parts, parts_eq_some_iff]

/-- A text that is not read as a type is no valid name of one. -/
theorem kind_of_ofText {text : String} {e : Error} (h : ofText text = .error e) :
    e.kind = .validation := by
  have unnamed {e : Error} (h : (fail (.preciseType text) : Outcome PreciseType) = .error e) :
      e.kind = .validation := by
    rw [← Except.error.inj h]
    rfl
  rw [ofText] at h
  split at h
  · split at h
    · cases h
    · exact unnamed h
  · cases h
  · next precision scale _ =>
    rw [ofNumeric] at h
    by_cases scaled : scale ≤ precision
    · simp [require, scaled, bind, Except.bind, pure, Except.pure] at h
    · simp only [require, scaled, decide_false, Bool.false_eq_true, if_false, bind, Except.bind,
        fail] at h
      rw [← Except.error.inj h]
      rfl
  · exact unnamed h

/-- The text of a number spells it. -/
private theorem numberSpelling_numberText (n : UInt32) : NumberSpelling n (numberText n) :=
  ⟨numberText n, .plain (.toDigits n.toNat), .refl _⟩

/-- The text of a type spells it. -/
theorem spelling_toText (type : PreciseType) : type.Spelling type.toText.toList := by
  have applied {parts : List (List Char)} (ne : type.arguments ≠ [])
      (hp : List.Forall₂ NumberSpelling type.arguments parts)
      (he : [','].intercalate parts =
        [',', ' '].intercalate (type.arguments.map numberText)) :
      type.Spelling type.toText.toList := by
    rw [toText, if_neg (by simpa using ne), String.toList_append, String.toList_ofList, ← he]
    exact .applied ne (.refl _) hp
  cases type with
  | varchar length =>
    cases length with
    | none => exact .bare rfl (.refl _)
    | some length =>
      exact applied nofun (.cons (numberSpelling_numberText length) .nil) rfl
  | numeric precision scale =>
    -- The blank behind the comma belongs to the second number.
    obtain ⟨numeral, unsigned, pads⟩ := numberSpelling_numberText scale
    exact applied nofun (.cons (numberSpelling_numberText precision)
      (.cons ⟨numeral, unsigned, pads.blank_before⟩ .nil)) rfl
  | _ => exact .bare rfl (.refl _)

/-- A type is read back from its text exactly if it is well scaled. Any text either spells a well
scaled type, which is then read from it and from the type's own text, or is no valid name. -/
theorem ofText_toText : (∀ type : PreciseType, ofText type.toText = .ok type ↔ type.WellScaled) ∧
    ∀ text : String,
      (∃ type, ofText text = .ok type ∧ type.WellScaled ∧ type.Spelling text.toList ∧
        ofText type.toText = .ok type) ∨
      ∃ e, ofText text = .error e ∧ e.kind = .validation ∧
        ∀ type : PreciseType, type.Spelling text.toList → ¬type.WellScaled := by
  have back (type : PreciseType) : ofText type.toText = .ok type ↔ type.WellScaled := by
    rw [ofText_eq_ok_iff, and_iff_right type.spelling_toText]
  refine ⟨back, fun text ↦ ?_⟩
  cases read : ofText text with
  | ok type =>
    obtain ⟨spelled, scaled⟩ := ofText_eq_ok_iff.mp read
    exact .inl ⟨type, rfl, scaled, spelled, (back type).mpr scaled⟩
  | error e =>
    refine .inr ⟨e, rfl, kind_of_ofText read, ?_⟩
    intro type spelled scaled
    have accepted := ofText_eq_ok_iff.mpr ⟨spelled, scaled⟩
    rw [read] at accepted
    cases accepted

end FrameQuery.PreciseType
