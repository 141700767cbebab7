import Mathlib.Algebra.GroupWithZero.Nat
import Mathlib.Data.List.DropRight
import Mathlib.Data.List.TakeWhile
import PooledPackets.Size

/-!
# What sizes are written as

A size is read from a text exactly if the text is spelled as sizes are: digits,
a unit and blanks around them. What is read is the number that the digits stand
for times the unit, and never anything else: a number or a product beyond a
machine word is refused like a text that is spelled in another way.
-/

namespace PooledPackets

namespace Text

variable {before after front rest core text : List Char} {char : Char}

/-! ## Blanks at the ends -/

section Scanning

variable {accepts : Char → Bool}

theorem dropWhile_append (all : ∀ char ∈ front, accepts char = true)
    (stops : ∀ char ∈ rest.head?, accepts char = false) :
    (front ++ rest).dropWhile accepts = rest := by
  rw [List.dropWhile_append_of_pos all]
  cases rest with
  | nil => rfl
  | cons first _ =>
      exact List.dropWhile_cons_of_neg (by simp [stops first rfl])

theorem takeWhile_append (all : ∀ char ∈ front, accepts char = true)
    (stops : ∀ char ∈ rest.head?, accepts char = false) :
    (front ++ rest).takeWhile accepts = front := by
  rw [List.takeWhile_append_of_pos all]
  cases rest with
  | nil => rw [List.takeWhile_nil, List.append_nil]
  | cons first _ =>
      rw [List.takeWhile_cons_of_neg (by simp [stops first rfl]),
        List.append_nil]

end Scanning

/-- A text is what is left of it without the blanks at its ends, and these. -/
theorem exists_trim (text : List Char) :
    ∃ before after, (∀ char ∈ before, isBlank char = true) ∧
      (∀ char ∈ after, isBlank char = true) ∧
      text = before ++ trim text ++ after := by
  refine ⟨text.takeWhile isBlank, (text.dropWhile isBlank).rtakeWhile isBlank,
    fun _ => List.mem_takeWhile_imp, fun _ => List.mem_rtakeWhile_imp, ?_⟩
  have parted : trim text ++ (text.dropWhile isBlank).rtakeWhile isBlank =
      text.dropWhile isBlank :=
    List.rdropWhile_append_rtakeWhile
  rw [List.append_assoc, parted, List.takeWhile_append_dropWhile]

theorem trim_of_blanks (before_blank : ∀ char ∈ before, isBlank char = true)
    (after_blank : ∀ char ∈ after, isBlank char = true)
    (starts : ∀ char ∈ core.head?, isBlank char = false)
    (ends : ∀ char ∈ core.getLast?, isBlank char = false) :
    trim (before ++ core ++ after) = core := by
  have front : (before ++ core ++ after).dropWhile isBlank = core ++ after ∨
      core = [] ∧ (before ++ core ++ after).dropWhile isBlank = [] := by
    cases core with
    | nil =>
        -- The blanks at both ends are taken for the ones at the start.
        right
        rw [List.dropWhile_eq_nil_iff]
        simp only [List.append_nil, List.mem_append]
        grind
    | cons first rest =>
        left
        rw [List.append_assoc]
        exact dropWhile_append before_blank starts
  rw [trim, dropBlanksRight]
  rcases front with isFront | ⟨rfl, nothing⟩
  · rw [isFront, List.reverse_append, dropWhile_append, List.reverse_reverse]
    · simpa using after_blank
    · simpa using ends
  · rw [nothing]
    rfl

/-! ## Capitals -/

/-- The numbers of the characters that are blank. -/
def blankCodes : List Nat :=
  [9, 10, 11, 12, 13, 0x20, 0x85, 0xa0, 0x1680, 0x2000, 0x2001, 0x2002, 0x2003,
    0x2004, 0x2005, 0x2006, 0x2007, 0x2008, 0x2009, 0x200a, 0x2028, 0x2029,
    0x202f, 0x205f, 0x3000]

theorem mem_blankCodes (blank : isBlank char = true) :
    char.toNat ∈ blankCodes := by
  simp only [isBlank, Bool.or_eq_true, Bool.and_eq_true, decide_eq_true_eq,
    beq_iff_eq] at blank
  simp only [blankCodes, List.mem_cons, List.not_mem_nil, or_false]
  omega

theorem upperCaseChar_of_isBlank (blank : isBlank char = true) :
    upperCaseChar char = [char] := by
  have known : ∀ code ∈ blankCodes,
      upperCaseChar (Char.ofNat code) = [Char.ofNat code] := by
    decide +kernel
  have fixed := known char.toNat (mem_blankCodes blank)
  rw [Char.ofNat_toNat] at fixed
  exact fixed

theorem upperCaseChar_of_isDigit (digit : char.isDigit = true) :
    upperCaseChar char = [char] := by
  have known : ∀ code < 58,
      upperCaseChar (Char.ofNat code) = [Char.ofNat code] := by
    decide +kernel
  obtain ⟨-, high⟩ := Char.isDigit_iff_toNat.mp digit
  have fixed := known char.toNat (Nat.lt_succ_of_le high)
  rw [Char.ofNat_toNat] at fixed
  exact fixed

theorem not_isDigit_of_isBlank (blank : isBlank char = true) :
    char.isDigit = false := by
  have code := mem_blankCodes blank
  rw [← Bool.not_eq_true, Char.isDigit_iff_toNat]
  rintro ⟨low, high⟩
  change 48 ≤ char.toNat at low
  change char.toNat ≤ 57 at high
  simp only [blankCodes, List.mem_cons, List.not_mem_nil, or_false] at code
  omega

theorem not_isBlank_of_isDigit (digit : char.isDigit = true) :
    isBlank char = false := by
  refine eq_false_of_ne_true fun blank => ?_
  rw [not_isDigit_of_isBlank blank] at digit
  cases digit

end Text

namespace Size

/-! ## Spelling -/

/-- The units in capitals, with the bytes that they stand for. -/
def units : List (List Char × Nat) :=
  [([], 1), (['B'], 1), (['K'], 1024), (['K', 'B'], 1024),
    (['M'], 1024 * 1024), (['M', 'B'], 1024 * 1024)]

/-- A text is spelled as a number of units: some digits, then a unit in capital
or small letters, with blanks before, between and after them. -/
inductive Spelled : List Char → Nat → Nat → Prop
  | intro (before digits gap suffix after : List Char) {unit : Nat}
      (before_blank : ∀ char ∈ before, Text.isBlank char = true)
      (isNumber : ∀ char ∈ digits, char.isDigit = true)
      (someDigit : digits ≠ [])
      (gap_blank : ∀ char ∈ gap, Text.isBlank char = true)
      (isUnit : (Text.upperCase suffix, unit) ∈ units)
      (after_blank : ∀ char ∈ after, Text.isBlank char = true) :
      Spelled (before ++ digits ++ gap ++ suffix ++ after)
        (Nat.ofDigitChars 10 digits 0) unit

variable {text digits tail suffix name : List Char} {number unit size : Nat}
variable {char : Char}

theorem unit?_eq_some_iff :
    unit? name = some unit ↔ (name, unit) ∈ units := by
  constructor
  · intro found
    unfold unit? at found
    split at found
    · rename_i isBytes
      cases found
      rcases isBytes with rfl | rfl <;> decide
    · split at found
      · rename_i isKilobytes
        cases found
        rcases isKilobytes with rfl | rfl <;> decide
      · split at found
        · rename_i isMegabytes
          cases found
          rcases isMegabytes with rfl | rfl <;> decide
        · cases found
  · have known : ∀ entry ∈ units, unit? entry.1 = some entry.2 := by
      decide
    exact known (name, unit)

/-- The letters of a unit are neither blanks nor digits. -/
theorem plain_of_isUnit (isUnit : (Text.upperCase suffix, unit) ∈ units)
    (member : char ∈ suffix) :
    Text.isBlank char = false ∧ char.isDigit = false := by
  have plain : ∀ entry ∈ units, entry.1.all fun capital =>
      !Text.isBlank capital && !capital.isDigit := by
    decide
  -- Blanks and digits are capitals of their own, so that they would stand in
  -- the name of the unit as well.
  have known (fixed : Text.upperCaseChar char = [char]) :
      Text.isBlank char = false ∧ char.isDigit = false := by
    have inUpperCase : char ∈ Text.upperCase suffix := by
      rw [Text.upperCase, List.mem_flatMap]
      exact ⟨char, member, fixed ▸ List.mem_singleton_self char⟩
    simpa using List.all_eq_true.mp (plain _ isUnit) char inUpperCase
  refine ⟨eq_false_of_ne_true fun blank => ?_,
    eq_false_of_ne_true fun digit => ?_⟩
  · rw [(known (Text.upperCaseChar_of_isBlank blank)).1] at blank
    cases blank
  · rw [(known (Text.upperCaseChar_of_isDigit digit)).2] at digit
    cases digit

theorem valueIn_eq (isNumber : ∀ char ∈ digits, char.isDigit = true) :
    Text.valueIn 10 digits = Nat.ofDigitChars 10 digits 0 := by
  rw [Nat.ofDigitChars_eq_foldl]
  apply List.foldl_ext
  intro value char member
  rw [Text.digitValue, if_pos (isNumber char member)]

/-! ## Reading -/

/-- What is read of a text without blanks at its ends. -/
theorem readTrimmed_eq_ok_iff :
    readTrimmed text = .ok size ↔
      text.takeWhile Char.isDigit ≠ [] ∧
      Nat.ofDigitChars 10 (text.takeWhile Char.isDigit) 0 < 2 ^ 64 ∧
      ∃ unit, (Text.upperCase (Text.trim (text.dropWhile Char.isDigit)),
          unit) ∈ units ∧
        Nat.ofDigitChars 10 (text.takeWhile Char.isDigit) 0 * unit = size ∧
        size < 2 ^ 64 := by
  have isNumber : ∀ char ∈ text.takeWhile Char.isDigit,
      char.isDigit = true := fun _ => List.mem_takeWhile_imp
  by_cases noDigit : text.takeWhile Char.isDigit = []
  · unfold readTrimmed
    dsimp only
    split
    · simp [noDigit]
    · simp [noDigit]
  have someText : text ≠ [] := by
    rintro rfl
    exact noDigit rfl
  unfold readTrimmed
  dsimp only
  rw [if_neg someText, if_neg noDigit, valueIn_eq isNumber]
  simp only [ne_eq, noDigit, not_false_eq_true, true_and,
    ← unit?_eq_some_iff]
  generalize Nat.ofDigitChars 10 (text.takeWhile Char.isDigit) 0 = number
  by_cases fits : number < 2 ^ 64
  · rw [Config.word?_of_lt fits]
    dsimp only
    cases unit? (Text.upperCase
        (Text.trim (text.dropWhile Char.isDigit))) with
    | none => simp
    | some unit =>
        dsimp only
        by_cases small : number * unit < 2 ^ 64
        · rw [Config.word?_of_lt small]
          simp only [Except.ok.injEq, Option.some.injEq, exists_eq_left']
          grind
        · rw [Config.word?_of_ge (Nat.le_of_not_lt small)]
          simp only [reduceCtorEq, Option.some.injEq, exists_eq_left']
          grind
  · rw [Config.word?_of_ge (Nat.le_of_not_lt fits)]
    simp only [reduceCtorEq, false_iff]
    exact fun known => fits known.1

/-- A text is the blanks around a number and a unit if it is read. -/
theorem spelled_of_read (isRead : read text = .ok size) :
    ∃ number unit, Spelled text number unit ∧ number < 2 ^ 64 ∧
      size = number * unit ∧ size < 2 ^ 64 := by
  obtain ⟨someDigit, fits, unit, isUnit, rfl, small⟩ :=
    readTrimmed_eq_ok_iff.mp isRead
  obtain ⟨before, after, before_blank, after_blank, isText⟩ :=
    Text.exists_trim text
  obtain ⟨gap, behind, gap_blank, behind_blank, isTail⟩ :=
    Text.exists_trim ((Text.trim text).dropWhile Char.isDigit)
  refine ⟨_, unit, ?_, fits, rfl, small⟩
  have ends_blank : ∀ char ∈ behind ++ after, Text.isBlank char = true :=
    fun char member => (List.mem_append.mp member).elim (behind_blank char)
      (after_blank char)
  have joined : text = before ++ (Text.trim text).takeWhile Char.isDigit ++
      gap ++ Text.trim ((Text.trim text).dropWhile Char.isDigit) ++
        (behind ++ after) := by
    calc text = before ++ Text.trim text ++ after := isText
      _ = before ++ ((Text.trim text).takeWhile Char.isDigit ++
            (Text.trim text).dropWhile Char.isDigit) ++ after := by
          rw [List.takeWhile_append_dropWhile]
      _ = before ++ ((Text.trim text).takeWhile Char.isDigit ++
            (gap ++ Text.trim ((Text.trim text).dropWhile Char.isDigit) ++
              behind)) ++ after := by
          rw [← isTail]
      _ = _ := by
          simp only [List.append_assoc]
  have spelled := Spelled.intro _ _ _ _ _ before_blank
    (fun _ => List.mem_takeWhile_imp) someDigit gap_blank isUnit ends_blank
  rw [← joined] at spelled
  exact spelled

/-- Behind the digits, what is no blank at the end of the text is the unit, with
the blanks ahead of it if it is written. -/
theorem exists_tail {gap after : List Char}
    (gap_blank : ∀ char ∈ gap, Text.isBlank char = true)
    (isUnit : (Text.upperCase suffix, unit) ∈ units)
    (after_blank : ∀ char ∈ after, Text.isBlank char = true) :
    ∃ tail behind, gap ++ suffix ++ after = tail ++ behind ∧
      (∀ char ∈ behind, Text.isBlank char = true) ∧
      Text.trim tail = suffix ∧
      (∀ char ∈ tail.head?, char.isDigit = false) ∧
      ∀ char ∈ tail.getLast?, Text.isBlank char = false := by
  have plain := @plain_of_isUnit suffix unit
  -- Without a unit, nothing tells the blanks ahead of it from those behind it.
  by_cases noUnit : suffix = []
  · refine ⟨[], gap ++ after, by rw [noUnit, List.append_nil, List.nil_append],
      ?_, noUnit.symm, by simp, by simp⟩
    intro char member
    exact (List.mem_append.mp member).elim (gap_blank char) (after_blank char)
  · have starts : ∀ char ∈ suffix.head?, Text.isBlank char = false :=
      fun char member => (plain isUnit (List.mem_of_mem_head? member)).1
    have ends : ∀ char ∈ suffix.getLast?, Text.isBlank char = false :=
      fun char member => (plain isUnit (List.mem_of_mem_getLast? member)).1
    refine ⟨gap ++ suffix, after, rfl, after_blank, ?_, ?_, ?_⟩
    · have trimmed := @Text.trim_of_blanks gap [] suffix gap_blank
        (fun _ impossible => nomatch impossible) starts ends
      rw [List.append_nil] at trimmed
      exact trimmed
    · intro char member
      rcases List.mem_append.mp (List.mem_of_mem_head? member) with
        inGap | inSuffix
      · exact Text.not_isDigit_of_isBlank (gap_blank char inGap)
      · exact (plain isUnit inSuffix).2
    · rw [List.getLast?_append_of_ne_nil _ noUnit]
      exact ends

/-- The blanks around a number and a unit are left out of what is read. -/
theorem read_of_spelled (spelled : Spelled text number unit)
    (fits : number < 2 ^ 64) (small : number * unit < 2 ^ 64) :
    read text = .ok (number * unit) := by
  cases spelled with
  | intro before digits gap suffix after before_blank isNumber someDigit
      gap_blank isUnit after_blank =>
    obtain ⟨tail, behind, isTail, behind_blank, trimmed, starts, ends⟩ :=
      exists_tail gap_blank isUnit after_blank
    have isCore : Text.trim (before ++ digits ++ gap ++ suffix ++ after) =
        digits ++ tail := by
      have joined : before ++ digits ++ gap ++ suffix ++ after =
          before ++ (digits ++ tail) ++ behind := by
        simp only [List.append_assoc] at isTail ⊢
        rw [isTail]
      rw [joined]
      apply Text.trim_of_blanks before_blank behind_blank
      · intro char member
        rw [List.head?_append_of_ne_nil _ someDigit] at member
        exact Text.not_isBlank_of_isDigit
          (isNumber char (List.mem_of_mem_head? member))
      · intro char member
        by_cases noTail : tail = []
        · rw [noTail, List.append_nil] at member
          exact Text.not_isBlank_of_isDigit
            (isNumber char (List.mem_of_mem_getLast? member))
        · rw [List.getLast?_append_of_ne_nil _ noTail] at member
          exact ends char member
    rw [read, isCore]
    have isFront := Text.takeWhile_append isNumber starts
    have isRest := Text.dropWhile_append isNumber starts
    rw [readTrimmed_eq_ok_iff, isFront, isRest, trimmed]
    exact ⟨someDigit, fits, unit, isUnit, rfl, small⟩

/-! ## Numerals -/

theorem spelled_toDigits (number zeros : Nat) {before after : List Char}
    (before_blank : ∀ char ∈ before, Text.isBlank char = true)
    (after_blank : ∀ char ∈ after, Text.isBlank char = true) :
    Spelled (before ++ List.replicate zeros '0' ++ Nat.toDigits 10 number ++
      after) number 1 := by
  have isNumber : ∀ char ∈ List.replicate zeros '0' ++
      Nat.toDigits 10 number, char.isDigit = true := by
    intro char member
    rcases List.mem_append.mp member with isZero | inNumeral
    · rw [List.eq_of_mem_replicate isZero]
      rfl
    · exact Nat.isDigit_of_mem_toDigits (by decide) (by decide) inNumeral
  have someDigit : List.replicate zeros '0' ++ Nat.toDigits 10 number ≠ [] :=
    List.append_ne_nil_of_right_ne_nil _ Nat.toDigits_ne_nil
  have bytes : (Text.upperCase [], 1) ∈ units := by
    decide
  have spelled := Spelled.intro before _ [] [] after before_blank isNumber
    someDigit (fun _ impossible => nomatch impossible) bytes after_blank
  rw [Nat.ofDigitChars_append, Nat.ofDigitChars_replicate_zero, Nat.mul_zero,
    Nat.ofDigitChars_ten_toDigits] at spelled
  simpa only [List.append_assoc, List.nil_append] using spelled

/-- A text is read as a size exactly if it is spelled as a number of units, the
number and what it comes to are machine words, and the size is what it comes to.
Every other text is refused with an error. In particular the numeral of each
machine word is read as this word, with zeros ahead of it and blanks around. -/
theorem read_exactly :
    (∀ (text : List Char) (size : Nat), read text = .ok size ↔
      ∃ number unit, Spelled text number unit ∧ number < 2 ^ 64 ∧
        size = number * unit ∧ size < 2 ^ 64) ∧
    (∀ text : List Char, (∀ number unit, Spelled text number unit →
      number < 2 ^ 64 → 2 ^ 64 ≤ number * unit) →
        ∃ error, read text = .error error) ∧
    ∀ (number zeros : Nat) (before after : List Char), number < 2 ^ 64 →
      (∀ char ∈ before, Text.isBlank char = true) →
      (∀ char ∈ after, Text.isBlank char = true) →
      read (before ++ List.replicate zeros '0' ++ Nat.toDigits 10 number ++
        after) = .ok number := by
  refine ⟨fun text size => ⟨spelled_of_read, ?_⟩, fun text unspelled => ?_,
    fun number zeros before after fits before_blank after_blank => ?_⟩
  · rintro ⟨number, unit, spelled, fits, rfl, small⟩
    exact read_of_spelled spelled fits small
  · cases reading : read text with
    | error error => exact ⟨error, rfl⟩
    | ok size =>
        obtain ⟨number, unit, spelled, fits, rfl, small⟩ :=
          spelled_of_read reading
        exact absurd small
          (Nat.not_lt_of_le (unspelled number unit spelled fits))
  · have spelled :=
      spelled_toDigits number zeros before_blank after_blank
    have isRead := read_of_spelled spelled fits
    rw [Nat.mul_one] at isRead
    exact isRead fits

/-- The largest word, with zeros ahead of it and blanks around, and a number of
kilobytes in small and capital letters. -/
theorem read_exactly_of_largest :
    read ([' ', .ofNat 0x3000] ++ List.replicate 3 '0' ++
      Nat.toDigits 10 (2 ^ 64 - 1) ++ ['\n']) = .ok (2 ^ 64 - 1) ∧
    read ['7', ' ', 'k', 'B'] = .ok 7168 := by
  obtain ⟨exactly, _, numerals⟩ := read_exactly
  have spelled : Spelled ['7', ' ', 'k', 'B'] 7 1024 :=
    .intro [] ['7'] [' '] ['k', 'B'] [] (List.all_eq_true.mp rfl)
      (List.all_eq_true.mp rfl) (by decide) (List.all_eq_true.mp rfl)
      (by decide) (List.all_eq_true.mp rfl)
  exact ⟨numerals _ 3 _ _ (by decide) (List.all_eq_true.mp rfl)
      (List.all_eq_true.mp rfl),
    (exactly _ _).mpr ⟨7, 1024, spelled, by decide, rfl, by decide⟩⟩

end Size

end PooledPackets
