import DoorBus.Text.Json.Reader

/-!
# Reading What Was Written

The writer shows a value in one way, the reader takes it in many. So the reader has
to be followed along what the writer does: which of three ways it takes for a
character, and that no digit of a number is taken for the start of something else,
nor what stands behind the number for a part of it.

Not all values are read back. Numbers that are more than digits are kept as they were
written, and text with half of a surrogate pair has no characters. Settings are stored
without either, and without lists. For values like these there may be other formats, or
other texts in the same one. All that is asked of a format is that it keeps them, and
the shortest text does.

The reader goes by depth, so the proof is by induction on it. A value of a given depth
needs the names and values of the next smaller one, and these need each other.

## Main definitions

* `Json.IsPlain`: A value of what settings are stored as.
* `Json.IsEnd`: What may stand behind a number.
* `Json.ReadsValues`, `Json.ReadsMembers`: What is read back at a given depth.
* `Json.Format`: A way to write values and to read them back.

## Theorems

* `escape_cases`, `readUnits_escape`: A character, in whatever way it is written.
* `readString_text`: Text up to its closing quote.
* `readNumber_natural`: A number, and what stands behind it.
* `readsValues_succ`, `readsMembers_succ`: One level of depth.
* `ofText_toText`: A plain value is read back from its text.
-/

namespace DoorBus

namespace Json

/-! ## Text -/

theorem value_digit : ∀ value < 16, Hex.value? (Hex.digit value) = some value := by
  decide

/-- Four of them make up a unit of 16 bits. -/
theorem hexUnit_digits {value : Nat} (h : value < 65536) :
    ∃ a b c d, Hex.digits 4 value = [a, b, c, d] ∧ hexUnit? a b c d = some value := by
  refine ⟨_, _, _, _, rfl, ?_⟩
  rw [hexUnit?, value_digit _ (Nat.mod_lt _ (by decide)),
    value_digit _ (Nat.mod_lt _ (by decide)), value_digit _ (Nat.mod_lt _ (by decide)),
    value_digit _ (Nat.mod_lt _ (by decide))]
  have hvalue : (value / 16 / 16 / 16 % 16 * 16 + value / 16 / 16 % 16) * 256
      + (value / 16 % 16 * 16 + value % 16) = value := by omega
  exact congrArg some hvalue

/-- The three ways to write a character: by a letter, by its unit, or as it is. -/
theorem escape_cases (char : Char) :
    (∃ letter, escape char = ['\\', letter] ∧ letter ≠ 'u' ∧ unescape? letter = some char) ∨
      (escape char = '\\' :: 'u' :: Hex.digits 4 char.toNat ∧ char.toNat < 65536) ∨
      (escape char = [char] ∧ char ≠ '"' ∧ char ≠ '\\' ∧ ¬char.toNat < 0x20) := by
  by_cases hshort : char ∈ ['"', '\\', '\x08', '\x0c', '\n', '\r', '\t']
  · simp only [List.mem_cons, List.not_mem_nil, or_false] at hshort
    rcases hshort with rfl | rfl | rfl | rfl | rfl | rfl | rfl
    all_goals exact .inl ⟨_, rfl, by decide, rfl⟩
  · simp only [List.mem_cons, List.not_mem_nil, or_false, not_or] at hshort
    have hescape : escape char
        = if char.toNat < 0x20 then '\\' :: 'u' :: Hex.digits 4 char.toNat else [char] := by
      simp only [escape, hshort, if_false]
    rw [hescape]
    by_cases hlow : char.toNat < 0x20
    · rw [if_pos hlow]
      exact .inr (.inl ⟨rfl, by omega⟩)
    · rw [if_neg hlow]
      exact .inr (.inr ⟨rfl, hshort.1, hshort.2.1, hlow⟩)

/-- A character is read as its unit, in whatever way it was written. -/
theorem readUnits_escape {char : Char} {rest behind : List Char} {units : List Nat}
    (h : readUnits rest = some (units, behind)) :
    readUnits (escape char ++ rest) = some (char.toNat :: units, behind) := by
  rcases escape_cases char with ⟨letter, hescape, hletter, hchar⟩ | ⟨hescape, hlow⟩ |
    ⟨hescape, hquote, hslash, hhigh⟩
  · have hnot : ∀ a b c d : Char, ∀ other, letter = 'u' → rest = a :: b :: c :: d :: other →
        False := fun _ _ _ _ _ hu _ => hletter hu
    rw [hescape, List.cons_append, List.singleton_append, readUnits.eq_4 _ _ hnot, hchar, h]
    rfl
  · rcases hexUnit_digits hlow with ⟨a, b, c, d, hdigits, hunit⟩
    rw [hescape, hdigits]
    simp only [List.cons_append, List.nil_append]
    rw [readUnits, hunit, h]
    rfl
  · rw [hescape, List.singleton_append, readUnits.eq_5 _ _ hquote
      (fun _ _ _ _ _ hsame _ => hslash hsame) (fun _ _ hsame _ => hslash hsame),
      if_neg (not_or.mpr ⟨hhigh, hslash⟩), h]
    rfl

theorem readUnits_text (text rest : List Char) :
    readUnits (text.flatMap escape ++ '"' :: rest) = some (text.map Char.toNat, rest) := by
  induction text with
  | nil => rfl
  | cons char text ih =>
      rw [List.flatMap_cons, List.append_assoc, List.map_cons]
      exact readUnits_escape ih

-- No character is half of a pair, so none waits for the next unit.
theorem charsOfUnits_cons (char : Char) (units : List Nat) :
    charsOfUnits (char.toNat :: units) = (charsOfUnits units).map (char :: ·) := by
  have hvalid : char.toNat < 0xD800 ∨ 0xDFFF < char.toNat ∧ char.toNat < 0x110000 := char.valid
  have hhigh : isHighSurrogate char.toNat = false := by
    rw [isHighSurrogate, Bool.and_eq_false_iff, decide_eq_false_iff_not, decide_eq_false_iff_not]
    omega
  have hlow : isLowSurrogate char.toNat = false := by
    rw [isLowSurrogate, Bool.and_eq_false_iff, decide_eq_false_iff_not, decide_eq_false_iff_not]
    omega
  cases units with
  | nil =>
      rw [charsOfUnits.eq_3, hhigh, hlow, Char.ofNat_toNat]
      rfl
  | cons unit units =>
      rw [charsOfUnits, hhigh, hlow, Char.ofNat_toNat, if_neg Bool.false_ne_true,
        if_neg Bool.false_ne_true]

/-- Text without halves of pairs is its own units. -/
theorem charsOfUnits_text (text : List Char) :
    charsOfUnits (text.map Char.toNat) = some text := by
  induction text with
  | nil => rfl
  | cons char text ih => rw [List.map_cons, charsOfUnits_cons, ih, Option.map_some]

/-- Text is read up to the quote that was put behind it, and not up to one
    inside. -/
theorem readString_text (text : String) (rest : List Char) :
    readString (text.toList.flatMap escape ++ '"' :: rest) = some (some text, rest) := by
  rw [readString, readUnits_text, Option.map_some]
  simp only [charsOfUnits_text, Option.map_some, String.ofList_toList]

/-! ## Numbers -/

/-- What may stand behind a number without being taken for a part of it. -/
def IsEnd (rest : List Char) : Prop :=
  ∀ char ∈ rest.head?, ¬char.isDigit = true ∧ char ≠ '.' ∧ char ≠ 'e' ∧ char ≠ 'E'

/-- A number starts with a digit. The reader knows it by that. -/
theorem exists_toDigits (value : Nat) :
    ∃ first others, Nat.toDigits 10 value = first :: others ∧ first.isDigit = true := by
  cases hdigits : Nat.toDigits 10 value with
  | nil => exact absurd hdigits Nat.toDigits_ne_nil
  | cons first others =>
      exact ⟨first, others, rfl,
        Nat.isDigit_of_mem_toDigits (by decide) (by decide) (hdigits ▸ List.mem_cons_self)⟩

/-- The digits of a number begin with zero only if that is all of them. -/
theorem eq_nil_of_toDigits {value : Nat} {more : List Char}
    (h : Nat.toDigits 10 value = '0' :: more) : more = [] := by
  induction value using Nat.strongRecOn generalizing more with
  | ind value ih =>
    by_cases hsmall : value < 10
    · rw [Nat.toDigits_of_lt_base hsmall, List.cons.injEq] at h
      exact h.2.symm
    · have hlarge : 10 ≤ value := Nat.not_lt.mp hsmall
      rw [Nat.toDigits_of_base_le (by decide) hlarge] at h
      -- The digits of a tenth are those in front, so it would be zero.
      rcases exists_toDigits (value / 10) with ⟨first, others, htenth, _⟩
      rw [htenth, List.cons_append, List.cons.injEq] at h
      rw [h.1] at htenth
      have hnone := ih (value / 10) (by omega) htenth
      have hzero : Nat.ofDigitChars 10 (Nat.toDigits 10 (value / 10)) 0 = 0 := by
        rw [htenth, hnone]
        rfl
      rw [Nat.ofDigitChars_ten_toDigits] at hzero
      omega

theorem naturalOfDigits_toDigits (value : Nat) :
    naturalOfDigits (Nat.toDigits 10 value) = value := by
  have hfold : naturalOfDigits (Nat.toDigits 10 value)
      = Nat.ofDigitChars 10 (Nat.toDigits 10 value) 0 := by
    rw [naturalOfDigits, Nat.ofDigitChars_eq_foldl]
    simp only [Nat.mul_comm]
  rw [hfold, Nat.ofDigitChars_ten_toDigits]

/-- The digits end where the number does, as none of them may stand behind it. -/
theorem readDigits_toDigits (value : Nat) {rest : List Char} (h : IsEnd rest) :
    readDigits (Nat.toDigits 10 value ++ rest) = some (Nat.toDigits 10 value, rest) := by
  have hdigits : ∀ char ∈ Nat.toDigits 10 value, char.isDigit = true := fun char hchar =>
    Nat.isDigit_of_mem_toDigits (by decide) (by decide) hchar
  have htake : rest.takeWhile Char.isDigit = [] ∧ rest.dropWhile Char.isDigit = rest := by
    cases rest with
    | nil => exact ⟨rfl, rfl⟩
    | cons char rest =>
        have hchar := (h char rfl).1
        exact ⟨List.takeWhile_cons_of_neg hchar, List.dropWhile_cons_of_neg hchar⟩
  have hne : ¬(Nat.toDigits 10 value).isEmpty = true := fun hempty =>
    Nat.toDigits_ne_nil (List.isEmpty_iff.mp hempty)
  rw [readDigits, List.takeWhile_append_of_pos hdigits, List.dropWhile_append_of_pos hdigits,
    htake.1, htake.2, List.append_nil]
  exact if_neg hne

/-- No number is written with zeros in front, which the reader would refuse. -/
theorem readWhole_toDigits (value : Nat) {rest : List Char} (h : IsEnd rest) :
    readWhole (Nat.toDigits 10 value ++ rest) = some (Nat.toDigits 10 value, rest) := by
  rw [readWhole, readDigits_toDigits value h]
  split
  · next heq =>
      rw [Option.some.injEq, Prod.mk.injEq] at heq
      exact absurd (eq_nil_of_toDigits heq.1) (List.cons_ne_nil _ _)
  · rfl

/-- What stands behind is not taken for a fraction. -/
theorem readFraction_of_end {rest : List Char} (h : IsEnd rest) :
    readFraction rest = some ([], rest) := by
  unfold readFraction
  split
  · exact absurd rfl (h '.' rfl).2.1
  · rfl

theorem readExponent_of_end {rest : List Char} (h : IsEnd rest) :
    readExponent rest = some ([], rest) := by
  cases rest with
  | nil => rfl
  | cons char rest =>
      rw [readExponent.eq_def]
      exact if_neg (not_or.mpr (h char rfl).2.2)

theorem readNumber_natural (value : Nat) {rest : List Char} (h : IsEnd rest) :
    readNumber (Nat.toDigits 10 value ++ rest) = some (natural value, rest) := by
  have hunsigned : readUnsigned (Nat.toDigits 10 value ++ rest) = some (natural value, rest) := by
    rw [readUnsigned, readWhole_toDigits value h]
    simp only [Option.bind_eq_bind, Option.bind_some, readFraction_of_end h,
      readExponent_of_end h, naturalOfDigits_toDigits]
    rfl
  unfold readNumber
  split
  · next other heq =>
      -- A digit is no minus sign.
      rcases exists_toDigits value with ⟨first, others, hdigits, hfirst⟩
      rw [hdigits, List.cons_append, List.cons.injEq] at heq
      rw [heq.1] at hfirst
      exact absurd hfirst (by decide)
  · exact hunsigned

/-! ## Values -/

mutual

/-- A value of what settings are stored as: nothing, numbers of at most 64 bits, text,
    and names with such values. -/
def IsPlain : Json → Prop
  | null => True
  | natural value => value < UInt64.size
  | string text => text.isSome = true
  | object members => ArePlain members
  | bool _ | number _ | array _ => False

/-- Names with such values. -/
def ArePlain : List (Option String × Json) → Prop
  | [] => True
  | (name, value) :: rest => name.isSome = true ∧ value.IsPlain ∧ ArePlain rest

end

theorem skipBlanks_of_not_blank {char : Char} {rest : List Char} (h : isBlank char = false) :
    skipBlanks (char :: rest) = char :: rest :=
  List.dropWhile_cons_of_neg (by rw [h]; exact Bool.false_ne_true)

theorem isEnd_cons {char : Char} {rest : List Char}
    (h : ¬char.isDigit = true ∧ char ≠ '.' ∧ char ≠ 'e' ∧ char ≠ 'E') : IsEnd (char :: rest) :=
  fun _ hother => Option.some.inj hother ▸ h

-- A digit starts none of the other sorts of values, and is not skipped as blank.
theorem readValue_of_digit {char : Char} (h : char.isDigit = true) (depth : Nat)
    (rest : List Char) : readValue (depth + 1) (char :: rest) = readNumber (char :: rest) := by
  have hblank : isBlank char = false := by
    rw [Bool.eq_false_iff]
    intro hblank
    simp only [isBlank, Bool.or_eq_true, decide_eq_true_eq] at hblank
    rcases hblank with ((rfl | rfl) | rfl) | rfl <;> exact absurd h (by decide)
  rw [readValue, skipBlanks_of_not_blank hblank]
  split
  case h_7 => rfl
  all_goals
    next heq =>
      rw [(List.cons.inj heq).1] at h
      exact absurd h (by decide)

theorem quote_append (text : String) (rest : List Char) :
    quote (some text) ++ rest = '"' :: (text.toList.flatMap escape ++ '"' :: rest) := by
  rw [quote, Option.getD_some, List.cons_append, List.cons_append, List.append_assoc,
    List.singleton_append]

/-- What stands behind a value in an object, with the closing brace and the rest. -/
def behind (rest : List Char) : List (Option String × Json) → List Char
  | [] => '}' :: rest
  | member :: more => ',' :: (renderMembers (member :: more) ++ '}' :: rest)

/-- A comma or a brace stands behind a value in an object, and neither could be
    part of a number. -/
theorem isEnd_behind (rest : List Char) (more : List (Option String × Json)) :
    IsEnd (behind rest more) := by
  cases more with
  | nil => exact isEnd_cons (by decide)
  | cons member more => exact isEnd_cons (by decide)

/-- The text of the members up to the first value, in the form that the reader
    walks through. -/
theorem renderMembers_append (name : String) (value : Json) (rest : List Char)
    (more : List (Option String × Json)) :
    renderMembers ((some name, value) :: more) ++ '}' :: rest
      = '"' :: (name.toList.flatMap escape
          ++ '"' :: ':' :: (value.render ++ behind rest more)) := by
  cases more with
  | nil =>
      rw [renderMembers, List.append_assoc, quote_append, List.cons_append]
      rfl
  | cons member more =>
      rw [renderMembers, List.append_assoc, List.append_assoc, quote_append, List.cons_append]
      · rfl
      · exact List.cons_ne_nil _ _

/-- Values are read back at a given depth. -/
def ReadsValues (depth : Nat) : Prop :=
  ∀ (json : Json) (rest : List Char), json.IsPlain → json.render.length < depth → IsEnd rest →
    readValue depth (json.render ++ rest) = some (json, rest)

/-- Names and values are read back at a given depth. -/
def ReadsMembers (depth : Nat) : Prop :=
  ∀ (members : List (Option String × Json)) (rest : List Char), members ≠ [] →
    ArePlain members → (renderMembers members).length < depth →
    readMembers depth (renderMembers members ++ '}' :: rest) = some (members, rest)

/-- A value needs the members one level below, where it has any. All other sorts
    are read at once. -/
theorem readsValues_succ {depth : Nat} (h : ReadsMembers depth) : ReadsValues (depth + 1) := by
  intro json rest hplain hdepth hend
  cases json with
  | null =>
      rw [render, readValue]
      rfl
  | natural value =>
      rcases exists_toDigits value with ⟨first, others, hdigits, hfirst⟩
      have hnumber := readNumber_natural value hend
      rw [hdigits] at hnumber
      rw [render, hdigits, List.cons_append, readValue_of_digit hfirst]
      exact hnumber
  | string text =>
      rcases Option.isSome_iff_exists.mp hplain with ⟨text, rfl⟩
      rw [render, quote_append, readValue, skipBlanks_of_not_blank rfl]
      simp only [readString_text, Option.map_some]
  | object members =>
      cases members with
      | nil => rfl
      | cons member others =>
          rcases member with ⟨name, value⟩
          rcases Option.isSome_iff_exists.mp hplain.1 with ⟨name, rfl⟩
          have hread := h ((some name, value) :: others) rest (List.cons_ne_nil _ _) hplain (by
            rw [render, List.cons_append, List.length_cons, List.length_append,
              List.length_singleton] at hdepth
            omega)
          -- The brace and what is in front of it leave the members one level of
          -- depth.
          rw [renderMembers_append] at hread
          rw [render, List.cons_append, List.cons_append, List.append_assoc, List.singleton_append,
            renderMembers_append, readValue, skipBlanks_of_not_blank rfl]
          simp only [skipBlanks_of_not_blank (rfl : isBlank '"' = false), hread, Option.map_some]
          rfl
  | bool value => exact absurd hplain id
  | number text => exact absurd hplain id
  | array items => exact absurd hplain id

theorem readsMembers_succ {depth : Nat} (hvalues : ReadsValues depth)
    (hmembers : ReadsMembers depth) : ReadsMembers (depth + 1) := by
  intro members rest hne hplain hdepth
  cases members with
  | nil => exact absurd rfl hne
  | cons member more =>
      rcases member with ⟨name, value⟩
      rcases hplain with ⟨hname, hvalue, hmore⟩
      rcases Option.isSome_iff_exists.mp hname with ⟨name, rfl⟩
      have hlength := congrArg List.length (renderMembers_append name value rest more)
      simp only [List.length_append, List.length_cons] at hlength
      have hbehind : rest.length < (behind rest more).length := by
        cases more with
        | nil => exact Nat.lt_succ_self _
        | cons next more =>
            simp only [behind, List.length_cons, List.length_append]
            omega
      have hread := hvalues value (behind rest more) hvalue (by omega) (isEnd_behind rest more)
      rw [renderMembers_append, readMembers, skipBlanks_of_not_blank rfl]
      simp only [readString_text, Option.bind_eq_bind, Option.bind_some,
        skipBlanks_of_not_blank (rfl : isBlank ':' = false), hread]
      cases more with
      | nil => rfl
      | cons next more =>
          have hrest := hmembers (next :: more) rest (List.cons_ne_nil _ _) hmore (by
            simp only [behind, List.length_cons, List.length_append] at hlength
            omega)
          simp only [behind, skipBlanks_of_not_blank (rfl : isBlank ',' = false), hrest]
          rfl

-- Depth is counted down at each level, and for each member of an object. The text is
-- longer than both, so its length is depth enough.
theorem reads_all (depth : Nat) : ReadsValues depth ∧ ReadsMembers depth := by
  induction depth with
  | zero =>
      exact ⟨fun _ _ _ hdepth => absurd hdepth (Nat.not_lt_zero _),
        fun _ _ _ _ hdepth => absurd hdepth (Nat.not_lt_zero _)⟩
  | succ depth ih => exact ⟨readsValues_succ ih.2, readsMembers_succ ih.1 ih.2⟩

/-- A plain value is read back from its text. -/
theorem ofText_toText {json : Json} (h : json.IsPlain) : ofText? json.toText = some json := by
  have hend : IsEnd [] := fun char hchar => absurd hchar.symm (Option.some_ne_none char)
  have hread := (reads_all (2 * json.render.length + 1)).1 json [] h (by omega) hend
  rw [List.append_nil] at hread
  rw [ofText?, toText, String.toList_ofList]
  simp only [hread, Option.bind_eq_bind, Option.bind_some]
  rfl

/-! ## Formats -/

/-- A way to write values as text and to read them, in which nothing that settings are
    stored as is lost. -/
structure Format where
  /-- The text of a value. -/
  write : Json → String
  /-- The value that a text is. -/
  read? : String → Option Json
  read_write : ∀ json : Json, json.IsPlain → read? (write json) = some json

/-- The shortest text. -/
def Format.shortest : Format where
  write := toText
  read? := ofText?
  read_write _ h := ofText_toText h

end Json

end DoorBus
