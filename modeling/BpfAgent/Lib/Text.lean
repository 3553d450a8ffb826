import Mathlib.Data.List.Basic
import Mathlib.Data.List.Infix

/-!
# Texts as lists of characters

What a scanner of line-oriented output asks of a string library: the text after
the first occurrence of a marker, the lines and the fields of a text, and the
number a field spells.  Fields are separated by whitespace in the sense of
Unicode, and may be joined again with one blank each.
-/

namespace Text

/-- Characters with the Unicode property White_Space. -/
def isWhitespace (character : Char) : Bool :=
  let code := character.toNat
  (9 ≤ code && code ≤ 13) || code == 0x20 || code == 0x85 || code == 0xA0 ||
    code == 0x1680 || (0x2000 ≤ code && code ≤ 0x200A) || code == 0x2028 ||
    code == 0x2029 || code == 0x202F || code == 0x205F || code == 0x3000

def splitWhitespace (text : List Char) : List (List Char) :=
  (text.splitOnP isWhitespace).filter (· ≠ [])

def stripCarriageReturn (line : List Char) : List Char :=
  if line.getLast? = some '\r' then line.dropLast else line

/-- Lines from what stands between the line feeds.  The last one has no line
feed after it and is no line if it is empty. -/
def endLines : List (List Char) → List (List Char)
  | [] => []
  | [last] => if last = [] then [] else [last]
  | line :: rest => stripCarriageReturn line :: endLines rest

def lines (text : List Char) : List (List Char) := endLines (text.splitOn '\n')

def trim (text : List Char) : List Char :=
  ((text.dropWhile isWhitespace).reverse.dropWhile isWhitespace).reverse

/-- What follows the first occurrence of a marker. -/
def afterFirst (marker : List Char) : List Char → Option (List Char)
  | [] => none
  | character :: rest =>
      if marker <+: character :: rest then
        some ((character :: rest).drop marker.length)
      else
        afterFirst marker rest

def stripPlus : List Char → List Char
  | '+' :: rest => rest
  | text => text

/-- An unsigned decimal number below `bound`; one leading plus sign is allowed. -/
def parseUnsigned (bound : Nat) (text : List Char) : Option Nat :=
  let digits := stripPlus text
  if digits ≠ [] ∧ digits.all Char.isDigit then
    let value := Nat.ofDigitChars 10 digits 0
    if value < bound then some value else none
  else
    none

section Markers

variable {marker text before rest : List Char}

theorem length_lt_of_afterFirst (nonempty : marker ≠ [])
    (found : afterFirst marker text = some rest) : rest.length < text.length := by
  induction text with
  | nil => cases found
  | cons character text inductionHypothesis =>
      rw [afterFirst] at found
      split at found
      · have length := congrArg List.length (Option.some.inj found)
        rw [List.length_drop] at length
        have positive : 0 < marker.length := List.length_pos_iff.mpr nonempty
        rw [List.length_cons] at length ⊢
        omega
      · exact Nat.lt_succ_of_lt (inductionHypothesis found)

theorem afterFirst_eq_none_iff (nonempty : marker ≠ []) :
    afterFirst marker text = none ↔ ¬marker <:+: text := by
  induction text with
  | nil => simp [afterFirst, nonempty]
  | cons character text inductionHypothesis =>
      rw [afterFirst, List.infix_cons_iff]
      split
      next starts => simp [starts]
      next later => rw [inductionHypothesis, not_or, and_iff_right later]

theorem afterFirst_append_self (nonempty : marker ≠ []) :
    afterFirst marker (marker ++ rest) = some rest := by
  cases marker with
  | nil => exact absurd rfl nonempty
  | cons character marker =>
      rw [List.cons_append, afterFirst, ← List.cons_append, if_pos (List.prefix_append _ _),
        List.drop_left]

theorem prefix_append_cons_iff {separator : Char} (outside : separator ∉ marker) :
    marker <+: before ++ separator :: rest ↔ marker <+: before := by
  constructor
  · intro starts
    rcases List.prefix_or_prefix_of_prefix starts (List.prefix_append _ _) with
      inside | ⟨tail, rfl⟩
    · exact inside
    · cases tail with
      | nil => simp
      | cons first tail =>
          have tails := (List.prefix_append_right_inj before).mp starts
          obtain ⟨rfl, -⟩ := List.cons_prefix_cons.mp tails
          exact absurd (List.mem_append_right _ List.mem_cons_self) outside
  · exact fun inside => inside.trans (List.prefix_append _ _)

/-- No occurrence crosses a character that is not in the marker. -/
theorem afterFirst_append_cons {separator : Char} (nonempty : marker ≠ [])
    (outside : separator ∉ marker) :
    afterFirst marker (before ++ separator :: rest) =
      ((afterFirst marker before).map (· ++ separator :: rest)).or (afterFirst marker rest) := by
  induction before with
  | nil =>
      have later : ¬marker <+: separator :: rest := by
        intro starts
        have inside : marker <+: [] := (prefix_append_cons_iff outside).mp starts
        exact nonempty (List.prefix_nil.mp inside)
      simp [afterFirst, later]
  | cons character before inductionHypothesis =>
      have starts : marker <+: character :: (before ++ separator :: rest) ↔
          marker <+: character :: before := by
        rw [← List.cons_append]
        exact prefix_append_cons_iff outside
      by_cases inside : marker <+: character :: before
      · rw [List.cons_append, afterFirst, afterFirst, if_pos (starts.mpr inside), if_pos inside,
          Option.map_some, Option.some_or, ← List.cons_append,
          List.drop_append_of_le_length inside.length_le]
      · rw [List.cons_append, afterFirst, afterFirst, if_neg (mt starts.mp inside),
          if_neg inside]
        exact inductionHypothesis

theorem afterFirst_append_cons_of_not_infix {separator : Char} (nonempty : marker ≠ [])
    (outside : separator ∉ marker) (absent : ¬marker <:+: before) :
    afterFirst marker (before ++ separator :: rest) = afterFirst marker rest := by
  rw [afterFirst_append_cons nonempty outside, (afterFirst_eq_none_iff nonempty).mpr absent]
  rfl

end Markers

theorem isDigit_toDigits {number : Nat} {character : Char}
    (member : character ∈ Nat.toDigits 10 number) : character.isDigit = true :=
  Nat.isDigit_of_mem_toDigits (by decide) (by decide) member

theorem stripPlus_toDigits (number : Nat) :
    stripPlus (Nat.toDigits 10 number) = Nat.toDigits 10 number := by
  unfold stripPlus
  split
  next rest signed =>
    have sign : '+' ∈ Nat.toDigits 10 number := signed ▸ List.mem_cons_self
    exact absurd (isDigit_toDigits sign) (by decide)
  next => rfl

theorem parseUnsigned_toDigits {bound number : Nat} (below : number < bound) :
    parseUnsigned bound (Nat.toDigits 10 number) = some number := by
  have digits : (Nat.toDigits 10 number).all Char.isDigit = true :=
    List.all_eq_true.mpr fun _ member => isDigit_toDigits member
  simp only [parseUnsigned, stripPlus_toDigits]
  rw [if_pos ⟨Nat.toDigits_ne_nil, digits⟩, Nat.ofDigitChars_ten_toDigits, if_pos below]

theorem takeWhile_append_cons {before rest : List Char} {character : Char}
    {kept : Char → Bool} (other : kept character = false) :
    (before ++ character :: rest).takeWhile kept = before.takeWhile kept := by
  induction before with
  | nil => simp [other]
  | cons first before inductionHypothesis =>
      rw [List.cons_append, List.takeWhile_cons, List.takeWhile_cons, inductionHypothesis]

/-- The digits of a number end at the first character that is none. -/
theorem takeWhile_toDigits (number : Nat) {character : Char} (other : character.isDigit = false)
    (rest : List Char) :
    (Nat.toDigits 10 number ++ character :: rest).takeWhile Char.isDigit =
      Nat.toDigits 10 number := by
  rw [List.takeWhile_append_of_pos fun _ member => isDigit_toDigits member]
  simp [other]

theorem digitChar_of_isDigit {character : Char} (digit : character.isDigit = true) :
    character.toNat - 48 < 10 ∧ Nat.digitChar (character.toNat - 48) = character := by
  simp only [Char.isDigit, Bool.and_eq_true, decide_eq_true_eq, ge_iff_le,
    UInt32.le_iff_toNat_le] at digit
  have low : 48 ≤ character.toNat := digit.1
  have high : character.toNat ≤ 57 := digit.2
  have small : character.toNat - 48 < 10 := by omega
  refine ⟨small, ?_⟩
  apply Char.toNat_inj.mp
  have spelled := Nat.toNat_digitChar_sub_48_of_lt_ten small
  have range := Nat.isDigit_digitChar (n := character.toNat - 48)
  rw [decide_eq_true small] at range
  simp only [Char.isDigit, Bool.and_eq_true, decide_eq_true_eq, ge_iff_le,
    UInt32.le_iff_toNat_le] at range
  have above : 48 ≤ (Nat.digitChar (character.toNat - 48)).toNat := range.1
  omega

theorem toDigits_append_digits {digits : List Char} {number : Nat} (positive : 0 < number)
    (all : ∀ character ∈ digits, character.isDigit = true) :
    Nat.toDigits 10 number ++ digits = Nat.toDigits 10 (Nat.ofDigitChars 10 digits number) := by
  induction digits generalizing number with
  | nil => simp
  | cons character digits inductionHypothesis =>
      obtain ⟨small, spelled⟩ := digitChar_of_isDigit (all character List.mem_cons_self)
      have longer := Nat.toDigits_append_toDigits (by decide : 1 < 10) positive small
      rw [Nat.toDigits_of_lt_base small, spelled] at longer
      rw [Nat.ofDigitChars_cons, ← inductionHypothesis (by omega)
        fun other member => all other (List.mem_cons_of_mem _ member)]
      change _ = Nat.toDigits 10 (10 * number + (character.toNat - 48)) ++ digits
      rw [← longer, List.append_assoc, List.singleton_append]

/-- Digits without a superfluous leading zero are the spelling of the number
they are read as. -/
theorem toDigits_ofDigitChars {digits : List Char}
    (all : ∀ character ∈ digits, character.isDigit = true) (nonempty : digits ≠ [])
    (canonical : ¬(digits.head? = some '0' ∧ 1 < digits.length)) :
    Nat.toDigits 10 (Nat.ofDigitChars 10 digits 0) = digits := by
  cases digits with
  | nil => exact absurd rfl nonempty
  | cons character digits =>
      obtain ⟨small, spelled⟩ := digitChar_of_isDigit (all character List.mem_cons_self)
      have first : Nat.toDigits 10 (character.toNat - 48) = [character] := by
        rw [Nat.toDigits_of_lt_base small, spelled]
      have value : Nat.ofDigitChars 10 (character :: digits) 0 =
          Nat.ofDigitChars 10 digits (character.toNat - 48) := by
        rw [Nat.ofDigitChars_cons, Nat.mul_zero, Nat.zero_add]
        rfl
      rw [value]
      by_cases zero : character.toNat - 48 = 0
      · have leading : character = '0' := by
          rw [← spelled, zero]
          rfl
        have alone : digits = [] := by
          by_contra more
          refine canonical ⟨congrArg some leading, ?_⟩
          have := List.length_pos_iff.mpr more
          rw [List.length_cons]
          omega
        rw [alone, Nat.ofDigitChars_nil, first]
      · rw [← toDigits_append_digits (Nat.pos_of_ne_zero zero)
          fun other member => all other (List.mem_cons_of_mem _ member), first,
          List.singleton_append]

theorem head_toDigits_ne_zero {number : Nat} (large : 10 ≤ number) :
    (Nat.toDigits 10 number).head? ≠ some '0' := by
  induction number using Nat.strong_induction_on with
  | _ number inductionHypothesis =>
      rw [Nat.toDigits_of_base_le (by decide) large, List.head?_append_of_ne_nil _
        Nat.toDigits_ne_nil]
      by_cases more : 10 ≤ number / 10
      · exact inductionHypothesis (number / 10) (by omega) more
      · rw [Nat.toDigits_of_lt_base (Nat.not_le.mp more), List.head?_cons]
        intro zero
        have := Nat.digitChar_eq_zero.mp (Option.some.inj zero)
        omega

/-- Lines without a line feed of their own are read back one by one, except that
an empty one at the end is not seen. -/
theorem flatMap_lines_intercalate {Output : Type} {body : List Char → List Output}
    (ignored : body [] = []) (unstripped : ∀ line, body (stripCarriageReturn line) = body line)
    {texts : List (List Char)} (single : ∀ line ∈ texts, '\n' ∉ line) :
    (lines (['\n'].intercalate texts)).flatMap body = texts.flatMap body := by
  have ended : ∀ texts : List (List Char),
      (endLines texts).flatMap body = texts.flatMap body := by
    intro texts
    induction texts with
    | nil => rfl
    | cons line rest inductionHypothesis =>
        cases rest with
        | nil =>
            by_cases empty : line = []
            · simp [endLines, empty, ignored]
            · simp [endLines, empty]
        | cons next rest =>
            rw [endLines, List.flatMap_cons, inductionHypothesis, unstripped,
              ← List.flatMap_cons]
            exact List.cons_ne_nil next rest
  by_cases empty : texts = []
  · subst empty
    rfl
  · rw [lines, List.splitOn_intercalate '\n' single empty, ended]

section Fields

variable {field gap text rest : List Char}

/-- Nothing of the text separates fields. -/
def Solid (text : List Char) : Prop := ∀ character ∈ text, isWhitespace character = false

def Blank (text : List Char) : Prop := ∀ character ∈ text, isWhitespace character = true

instance decidableSolid (text : List Char) : Decidable (Solid text) :=
  List.decidableBAll _ text

instance decidableBlank (text : List Char) : Decidable (Blank text) :=
  List.decidableBAll _ text

theorem Solid.tail {character : Char} (solid : Solid (character :: text)) : Solid text :=
  (List.forall_mem_cons.mp solid).2

theorem Blank.tail {character : Char} (blank : Blank (character :: text)) : Blank text :=
  (List.forall_mem_cons.mp blank).2

theorem dropWhile_of_solid (solid : Solid text) : text.dropWhile isWhitespace = text := by
  cases text with
  | nil => rfl
  | cons character text =>
      rw [List.dropWhile_cons_of_neg]
      rw [solid character List.mem_cons_self]
      exact Bool.false_ne_true

theorem trim_append_blank {blank : Char} (isBlank : isWhitespace blank = true)
    (solid : Solid text) : trim (text ++ [blank]) = text := by
  have front : (text ++ [blank]).dropWhile isWhitespace = text ++ [blank] ∨ text = [] := by
    cases text with
    | nil => exact .inr rfl
    | cons character text =>
        refine .inl (List.dropWhile_cons_of_neg ?_)
        rw [solid character List.mem_cons_self]
        exact Bool.false_ne_true
  rcases front with whole | rfl
  · have reversed : Solid text.reverse := by
      intro character member
      exact solid character (List.mem_reverse.mp member)
    rw [trim, whole, List.reverse_append, List.reverse_singleton, List.singleton_append,
      List.dropWhile_cons_of_pos isBlank, dropWhile_of_solid reversed, List.reverse_reverse]
  · simp [trim, isBlank]

theorem solid_append (first : Solid text) (second : Solid rest) : Solid (text ++ rest) := by
  intro character member
  rcases List.mem_append.mp member with early | late
  · exact first character early
  · exact second character late

theorem solid_toDigits (number : Nat) : Solid (Nat.toDigits 10 number) := by
  intro character member
  have digit := isDigit_toDigits member
  rw [Char.isDigit, Bool.and_eq_true, decide_eq_true_eq, decide_eq_true_eq] at digit
  have low : 48 ≤ character.toNat := digit.1
  have high : character.toNat ≤ 57 := digit.2
  simp only [isWhitespace, Bool.or_eq_false_iff, Bool.and_eq_false_iff, decide_eq_false_iff_not,
    beq_eq_false_iff_ne]
  omega

theorem splitWhitespace_cons_blank {character : Char} (blank : isWhitespace character = true)
    (rest : List Char) : splitWhitespace (character :: rest) = splitWhitespace rest := by
  simp [splitWhitespace, List.splitOnP_cons_eq_if_modifyHead, blank]

theorem splitWhitespace_blank_append (blank : Blank gap) (rest : List Char) :
    splitWhitespace (gap ++ rest) = splitWhitespace rest := by
  induction gap with
  | nil => rfl
  | cons character gap inductionHypothesis =>
      rw [List.cons_append, splitWhitespace_cons_blank (blank character List.mem_cons_self)]
      exact inductionHypothesis blank.tail

theorem splitWhitespace_append_cons {character : Char} (blank : isWhitespace character = true)
    (text rest : List Char) :
    splitWhitespace (text ++ character :: rest) = splitWhitespace text ++ splitWhitespace rest := by
  rw [splitWhitespace, List.splitOnP_append_cons _ _ blank, List.filter_append]
  rfl

theorem splitWhitespace_append_blank (blank : Blank gap) (text : List Char) :
    splitWhitespace (text ++ gap) = splitWhitespace text := by
  cases gap with
  | nil => rw [List.append_nil]
  | cons character gap =>
      have only : splitWhitespace gap = [] := by
        rw [← List.append_nil gap, splitWhitespace_blank_append blank.tail]
        rfl
      rw [splitWhitespace_append_cons (blank character List.mem_cons_self), only,
        List.append_nil]

theorem splitWhitespace_of_solid (solid : Solid field) (nonempty : field ≠ []) :
    splitWhitespace field = [field] := by
  rw [splitWhitespace, List.splitOnP_eq_singleton solid]
  simp [nonempty]

theorem splitWhitespace_field (solid : Solid field) (nonempty : field ≠ [])
    (blank : Blank gap) (apart : gap ≠ []) (rest : List Char) :
    splitWhitespace (field ++ (gap ++ rest)) = field :: splitWhitespace rest := by
  cases gap with
  | nil => exact absurd rfl apart
  | cons character gap =>
      rw [List.cons_append, splitWhitespace_append_cons (blank character List.mem_cons_self),
        splitWhitespace_of_solid solid nonempty, splitWhitespace_blank_append blank.tail]
      rfl

theorem splitWhitespace_columns {columns : List (List Char × List Char)}
    (solid : ∀ column ∈ columns, Solid column.1 ∧ column.1 ≠ [])
    (apart : ∀ column ∈ columns, Blank column.2 ∧ column.2 ≠ []) (rest : List Char) :
    splitWhitespace (columns.flatMap (fun column => column.1 ++ column.2) ++ rest) =
      columns.map Prod.fst ++ splitWhitespace rest := by
  induction columns with
  | nil => rfl
  | cons column columns inductionHypothesis =>
      obtain ⟨fieldSolid, nonempty⟩ := solid column List.mem_cons_self
      obtain ⟨gapBlank, gapNonempty⟩ := apart column List.mem_cons_self
      rw [List.flatMap_cons, List.append_assoc, List.append_assoc,
        splitWhitespace_field fieldSolid nonempty gapBlank gapNonempty,
        inductionHypothesis (fun other member => solid other (List.mem_cons_of_mem _ member))
          fun other member => apart other (List.mem_cons_of_mem _ member)]
      rfl

theorem splitWhitespace_stripCarriageReturn (line : List Char) :
    splitWhitespace (stripCarriageReturn line) = splitWhitespace line := by
  unfold stripCarriageReturn
  split
  next ends =>
    obtain ⟨before, rfl⟩ := List.getLast?_eq_some_iff.mp ends
    rw [List.dropLast_concat]
    refine (splitWhitespace_append_blank ?_ before).symm
    intro character member
    rw [List.mem_singleton.mp member]
    rfl
  next => rfl

end Fields

section Collapse

def startsBlank (text : List Char) : Bool := text.head?.any isWhitespace

/-- Every run of whitespace becomes one blank. -/
def collapse : List Char → List Char
  | [] => []
  | character :: rest =>
      if isWhitespace character then
        if startsBlank rest then collapse rest else ' ' :: collapse rest
      else
        character :: collapse rest

variable {marker text before rest : List Char} {character : Char}

theorem collapse_cons_solid (solid : isWhitespace character = false) (rest : List Char) :
    collapse (character :: rest) = character :: collapse rest := by
  simp [collapse, solid]

theorem collapse_solid_append (solid : Solid before) (rest : List Char) :
    collapse (before ++ rest) = before ++ collapse rest := by
  induction before with
  | nil => rfl
  | cons character before inductionHypothesis =>
      rw [List.cons_append, collapse_cons_solid (solid character List.mem_cons_self),
        inductionHypothesis solid.tail]
      rfl

/-- No run of whitespace crosses a character that is none. -/
theorem collapse_append_cons (solid : isWhitespace character = false) (before rest : List Char) :
    collapse (before ++ character :: rest) = collapse before ++ character :: collapse rest := by
  induction before with
  | nil => exact collapse_cons_solid solid rest
  | cons first before inductionHypothesis =>
      have starts : startsBlank (before ++ character :: rest) = startsBlank before := by
        cases before with
        | nil => simp [startsBlank, solid]
        | cons second before => rfl
      rw [List.cons_append, collapse, collapse, starts, inductionHypothesis]
      split
      · split <;> rfl
      · rfl

/-- A character that is no whitespace opens the first field, or stands in front
of what has been its beginning. -/
theorem splitWhitespace_cons_solid (solid : isWhitespace character = false) (rest : List Char) :
    ∃ field fields, splitWhitespace (character :: rest) = (character :: field) :: fields ∧
      splitWhitespace rest = (if field = [] then fields else field :: fields) ∧
      (field = [] ↔ rest = [] ∨ startsBlank rest = true) := by
  obtain ⟨field, pieces, split⟩ :=
    List.exists_cons_of_ne_nil (List.splitOnP_ne_nil isWhitespace rest)
  refine ⟨field, pieces.filter (· ≠ []), ?_, ?_, ?_⟩
  · rw [splitWhitespace, List.splitOnP_cons_eq_if_modifyHead, solid, split]
    simp
  · rw [splitWhitespace, split, List.filter_cons]
    by_cases empty : field = [] <;> simp [empty]
  · cases rest with
    | nil =>
        rw [List.splitOnP_nil] at split
        simp [(List.cons.inj split).1.symm]
    | cons next rest =>
        rw [List.splitOnP_cons_eq_if_modifyHead] at split
        cases blank : isWhitespace next with
        | true =>
            rw [if_pos blank] at split
            simp [(List.cons.inj split).1.symm, startsBlank, blank]
        | false =>
            obtain ⟨other, others, splitRest⟩ :=
              List.exists_cons_of_ne_nil (List.splitOnP_ne_nil isWhitespace rest)
            rw [if_neg (by simp [blank]), splitRest, List.modifyHead_cons] at split
            simp [(List.cons.inj split).1.symm, startsBlank, blank]

theorem splitWhitespace_ne_nil (solid : isWhitespace character = false)
    (member : character ∈ text) : splitWhitespace text ≠ [] := by
  induction text with
  | nil => cases member
  | cons first rest inductionHypothesis =>
      cases blank : isWhitespace first with
      | true =>
          rw [splitWhitespace_cons_blank blank]
          rcases List.mem_cons.mp member with rfl | later
          · rw [solid] at blank
            cases blank
          · exact inductionHypothesis later
      | false =>
          obtain ⟨field, fields, split, -, -⟩ := splitWhitespace_cons_solid blank rest
          rw [split]
          exact List.cons_ne_nil _ _

/-- Joining the fields of a text that ends in one collapses it; what stands in
front of the first field is lost. -/
theorem collapse_eq_intercalate (text : List Char)
    (ends : ∀ last ∈ text.getLast?, isWhitespace last = false) :
    collapse text =
      if startsBlank text then ' ' :: [' '].intercalate (splitWhitespace text)
      else [' '].intercalate (splitWhitespace text) := by
  induction text with
  | nil => rfl
  | cons character rest inductionHypothesis =>
      by_cases empty : rest = []
      · subst empty
        have solid : isWhitespace character = false := ends character rfl
        have starts : startsBlank [character] = false := solid
        rw [starts, splitWhitespace_of_solid (by simpa [Solid] using solid) (by simp)]
        simp [collapse, solid]
      · rw [List.getLast?_cons_of_ne_nil empty] at ends
        have joined := inductionHypothesis ends
        cases blank : isWhitespace character with
        | true =>
            have starts : startsBlank (character :: rest) = true := blank
            rw [if_pos starts, splitWhitespace_cons_blank blank, collapse, if_pos blank, joined]
            cases startsBlank rest <;> rfl
        | false =>
            obtain ⟨field, fields, split, splitRest, opens⟩ :=
              splitWhitespace_cons_solid blank rest
            have starts : startsBlank (character :: rest) = false := blank
            rw [collapse_cons_solid blank, joined, starts, split]
            cases next : startsBlank rest with
            | true =>
                have alone : field = [] := opens.mpr (.inr next)
                rw [if_pos alone] at splitRest
                have more : fields ≠ [] := by
                  rw [← splitRest]
                  have member := List.getLast_mem empty
                  exact splitWhitespace_ne_nil (ends _ (List.getLast?_eq_some_getLast empty)) member
                rw [splitRest, alone, List.intercalate_cons_of_ne_nil more]
                rfl
            | false =>
                have joins : field ≠ [] := by
                  intro alone
                  rcases opens.mp alone with nothing | starts
                  · exact empty nothing
                  · rw [next] at starts
                    cases starts
                rw [if_neg joins] at splitRest
                rw [splitRest]
                cases fields with
                | nil => simp
                | cons other fields => simp [List.intercalate_cons_cons]

theorem intercalate_splitWhitespace (starts : startsBlank text = false)
    (ends : ∀ last ∈ text.getLast?, isWhitespace last = false) :
    [' '].intercalate (splitWhitespace text) = collapse text := by
  rw [collapse_eq_intercalate text ends, starts]
  rfl

theorem not_prefix_blank_cons (solid : Solid marker) (nonempty : marker ≠ [])
    (blank : isWhitespace character = true) (rest : List Char) : ¬marker <+: character :: rest := by
  intro starts
  cases marker with
  | nil => exact nonempty rfl
  | cons first marker =>
      obtain ⟨rfl, -⟩ := List.cons_prefix_cons.mp starts
      rw [solid first List.mem_cons_self] at blank
      cases blank

theorem collapse_cons_blank (blank : isWhitespace character = true) (rest : List Char) :
    ∃ tail, collapse (character :: rest) = ' ' :: tail := by
  induction rest generalizing character with
  | nil => exact ⟨[], by simp [collapse, blank, startsBlank]⟩
  | cons next rest inductionHypothesis =>
      rw [collapse, if_pos blank]
      cases again : isWhitespace next with
      | true =>
          rw [if_pos (show startsBlank (next :: rest) = true from again)]
          exact inductionHypothesis again
      | false =>
          rw [if_neg (by simp [startsBlank, again])]
          exact ⟨_, rfl⟩

theorem prefix_of_prefix_collapse (solid : Solid marker) (starts : marker <+: collapse text) :
    marker <+: text := by
  induction text generalizing marker with
  | nil => exact starts
  | cons character rest inductionHypothesis =>
      cases marker with
      | nil => exact List.nil_prefix
      | cons first marker =>
          cases blank : isWhitespace character with
          | true =>
              obtain ⟨tail, collapsed⟩ := collapse_cons_blank blank rest
              rw [collapsed] at starts
              exact absurd starts (not_prefix_blank_cons solid (by simp) rfl tail)
          | false =>
              rw [collapse_cons_solid blank] at starts
              obtain ⟨rfl, later⟩ := List.cons_prefix_cons.mp starts
              exact List.cons_prefix_cons.mpr ⟨rfl, inductionHypothesis solid.tail later⟩

theorem infix_of_infix_collapse (solid : Solid marker) (nonempty : marker ≠ [])
    (occurs : marker <:+: collapse text) : marker <:+: text := by
  induction text with
  | nil => exact occurs
  | cons character rest inductionHypothesis =>
      rw [List.infix_cons_iff]
      cases blank : isWhitespace character with
      | true =>
          rw [collapse, if_pos blank] at occurs
          split at occurs
          next => exact .inr (inductionHypothesis occurs)
          next =>
            rcases List.infix_cons_iff.mp occurs with starts | later
            · exact absurd starts (not_prefix_blank_cons solid nonempty rfl _)
            · exact .inr (inductionHypothesis later)
      | false =>
          rw [collapse_cons_solid blank] at occurs
          rcases List.infix_cons_iff.mp occurs with starts | later
          · rw [← collapse_cons_solid blank] at starts
            exact .inl (prefix_of_prefix_collapse solid starts)
          · exact .inr (inductionHypothesis later)

end Collapse

section Position

variable {field before after text : List Char}

def endsBlank (text : List Char) : Bool := text.getLast?.any isWhitespace

theorem splitWhitespace_append_of_endsBlank (ends : endsBlank before = true) (rest : List Char) :
    splitWhitespace (before ++ rest) = splitWhitespace before ++ splitWhitespace rest := by
  rw [endsBlank, Option.any_eq_true] at ends
  obtain ⟨last, found, blank⟩ := ends
  obtain ⟨start, rfl⟩ := List.getLast?_eq_some_iff.mp found
  rw [List.append_assoc, List.singleton_append, splitWhitespace_append_cons blank,
    splitWhitespace_append_cons blank]
  exact congrArg (· ++ _) (List.append_nil _).symm

theorem splitWhitespace_solid_append (solid : Solid field) (nonempty : field ≠ [])
    (apart : after = [] ∨ startsBlank after = true) :
    splitWhitespace (field ++ after) = field :: splitWhitespace after := by
  cases after with
  | nil => rw [List.append_nil, splitWhitespace_of_solid solid nonempty]; rfl
  | cons character after =>
      have blank : isWhitespace character = true := by simpa [startsBlank] using apart
      rw [splitWhitespace_append_cons blank, splitWhitespace_of_solid solid nonempty,
        splitWhitespace_cons_blank blank]
      rfl

theorem exists_first_field {character : Char} (opens : isWhitespace character = false)
    (rest : List Char) :
    ∃ field after, character :: rest = field ++ after ∧ Solid field ∧ field ≠ [] ∧
      (after = [] ∨ startsBlank after = true) := by
  refine ⟨(character :: rest).takeWhile (!isWhitespace ·),
    (character :: rest).dropWhile (!isWhitespace ·), List.takeWhile_append_dropWhile.symm,
    ?_, by simp [opens], ?_⟩
  · intro other member
    simpa using List.all_eq_true.mp List.all_takeWhile other member
  · cases split : (character :: rest).dropWhile (!isWhitespace ·) with
    | nil => exact .inl rfl
    | cons first behind =>
        have stops := List.head?_dropWhile_not (!isWhitespace ·) (character :: rest)
        rw [split, List.head?_cons] at stops
        right
        simpa [startsBlank] using stops

theorem endsBlank_append_cons {character : Char} (blank : isWhitespace character = true)
    (ends : after = [] ∨ endsBlank after = true) (before : List Char) :
    endsBlank (before ++ character :: after) = true := by
  rcases ends with rfl | ends
  · simp [endsBlank, blank]
  · rw [endsBlank, Option.any_eq_true] at ends ⊢
    obtain ⟨last, found, blankLast⟩ := ends
    exact ⟨last, by simp [List.getLast?_append, List.getLast?_cons, found], blankLast⟩

/-- A field stands behind as many fields as its position says, with whitespace
on both sides unless the text ends there. -/
theorem exists_of_getElem?_splitWhitespace {index : Nat}
    (found : (splitWhitespace text)[index]? = some field) :
    ∃ before after, text = before ++ (field ++ after) ∧
      (splitWhitespace before).length = index ∧ (before = [] ∨ endsBlank before = true) ∧
      (after = [] ∨ startsBlank after = true) := by
  induction measured : text.length using Nat.strongRecOn generalizing text index with
  | ind size inductionHypothesis =>
      cases text with
      | nil => cases found
      | cons character rest =>
          cases blank : isWhitespace character with
          | true =>
              rw [splitWhitespace_cons_blank blank] at found
              have shorter : rest.length < size := by
                rw [← measured]
                exact Nat.lt_succ_self _
              obtain ⟨before, after, rfl, count, ends, starts⟩ :=
                inductionHypothesis _ shorter found rfl
              refine ⟨character :: before, after, rfl, ?_, .inr ?_, starts⟩
              · rw [splitWhitespace_cons_blank blank, count]
              · exact endsBlank_append_cons blank ends []
          | false =>
              obtain ⟨first, behind, whole, solid, opened, apart⟩ := exists_first_field blank rest
              rw [whole] at found measured ⊢
              rw [splitWhitespace_solid_append solid opened apart] at found
              cases index with
              | zero =>
                  cases found
                  exact ⟨[], behind, rfl, rfl, .inl rfl, apart⟩
              | succ index =>
                  rw [List.getElem?_cons_succ] at found
                  cases behind with
                  | nil => cases found
                  | cons gap behind =>
                      have blankGap : isWhitespace gap = true := by
                        simpa [startsBlank] using apart
                      rw [splitWhitespace_cons_blank blankGap] at found
                      have shorter : behind.length < size := by
                        rw [← measured, List.length_append, List.length_cons]
                        omega
                      obtain ⟨before, after, rfl, count, ends, starts⟩ :=
                        inductionHypothesis _ shorter found rfl
                      refine ⟨first ++ gap :: before, after, by simp, ?_, .inr ?_, starts⟩
                      · rw [splitWhitespace_append_cons blankGap,
                          splitWhitespace_of_solid solid opened, List.length_append, count,
                          List.length_singleton, Nat.add_comm]
                      · exact endsBlank_append_cons blankGap ends first

theorem getElem?_splitWhitespace_iff {index : Nat} (solid : Solid field) (nonempty : field ≠ []) :
    (splitWhitespace text)[index]? = some field ↔
      ∃ before after, text = before ++ (field ++ after) ∧
        (splitWhitespace before).length = index ∧ (before = [] ∨ endsBlank before = true) ∧
        (after = [] ∨ startsBlank after = true) := by
  constructor
  · exact exists_of_getElem?_splitWhitespace
  · rintro ⟨before, after, rfl, rfl, ends, starts⟩
    have fields : splitWhitespace (before ++ (field ++ after)) =
        splitWhitespace before ++ splitWhitespace (field ++ after) := by
      rcases ends with rfl | ends
      · rfl
      · exact splitWhitespace_append_of_endsBlank ends _
    rw [fields, splitWhitespace_solid_append solid nonempty starts,
      List.getElem?_append_right (Nat.le_refl _), Nat.sub_self, List.getElem?_cons_zero]

theorem splitOn_eq_takeWhile_cons (text : List Char) :
    ∃ rest, text.splitOn '\n' = text.takeWhile (· ≠ '\n') :: rest := by
  induction text with
  | nil => exact ⟨[], rfl⟩
  | cons character text inductionHypothesis =>
      obtain ⟨rest, split⟩ := inductionHypothesis
      rw [List.splitOn] at split ⊢
      rw [List.splitOnP_cons_eq_if_modifyHead, split]
      by_cases feed : character = '\n'
      · exact ⟨text.takeWhile (· ≠ '\n') :: rest, by simp [feed]⟩
      · exact ⟨rest, by simp [feed]⟩

theorem lines_append_cons {line : List Char} (single : '\n' ∉ line) (rest : List Char) :
    lines (line ++ '\n' :: rest) = stripCarriageReturn line :: lines rest := by
  have split : (line ++ '\n' :: rest).splitOn '\n' = line :: rest.splitOn '\n' := by
    apply List.splitOnP_append_cons_of_forall_mem
    · intro character member
      rw [beq_eq_false_iff_ne]
      rintro rfl
      exact single member
    · rfl
  rw [lines, split]
  obtain ⟨more, shape⟩ := splitOn_eq_takeWhile_cons rest
  rw [lines, shape, endLines]
  exact List.cons_ne_nil _ _

/-- The fields of the first line are those in front of the first line feed. -/
theorem splitWhitespace_head_lines (text : List Char) :
    splitWhitespace ((lines text).head?.getD []) =
      splitWhitespace (text.takeWhile (· ≠ '\n')) := by
  obtain ⟨rest, split⟩ := splitOn_eq_takeWhile_cons text
  rw [lines, split]
  cases rest with
  | nil =>
      rw [endLines]
      split
      next empty => rw [empty]; rfl
      next => rfl
  | cons line rest =>
      rw [endLines, List.head?_cons, Option.getD_some, splitWhitespace_stripCarriageReturn]
      exact List.cons_ne_nil _ _

theorem startsBlank_append (starts : startsBlank before = true) (rest : List Char) :
    startsBlank (before ++ rest) = true := by
  cases before with
  | nil => cases starts
  | cons character before => exact starts

theorem getElem?_first_line_iff {index : Nat} (solid : Solid field) (nonempty : field ≠ []) :
    (splitWhitespace ((lines text).head?.getD []))[index]? = some field ↔
      ∃ before after, text = before ++ (field ++ after) ∧ '\n' ∉ before ∧
        (splitWhitespace before).length = index ∧ (before = [] ∨ endsBlank before = true) ∧
        (after = [] ∨ startsBlank after = true) := by
  rw [splitWhitespace_head_lines, getElem?_splitWhitespace_iff solid nonempty]
  constructor
  · rintro ⟨before, after, line, count, ends, starts⟩
    have whole := List.takeWhile_append_dropWhile (p := (· ≠ '\n')) (l := text)
    have noFeed : ∀ character ∈ before ++ (field ++ after), character ≠ '\n' := by
      rw [← line]
      intro character member
      simpa using List.all_eq_true.mp List.all_takeWhile character member
    refine ⟨before, after ++ text.dropWhile (· ≠ '\n'), ?_, ?_, count, ends, ?_⟩
    · rw [← List.append_assoc field, ← List.append_assoc before, ← line, whole]
    · exact fun feed => noFeed _ (List.mem_append_left _ feed) rfl
    · rcases starts with rfl | starts
      · rw [List.nil_append]
        cases rest : text.dropWhile (· ≠ '\n') with
        | nil => exact .inl rfl
        | cons character rest' =>
            have stops := List.head?_dropWhile_not (· ≠ '\n') text
            rw [rest, List.head?_cons] at stops
            have feed : character = '\n' := by simpa using stops
            exact .inr (by rw [feed]; rfl)
      · exact .inr (startsBlank_append starts _)
  · rintro ⟨before, after, rfl, noFeed, count, ends, starts⟩
    have inside : ∀ character ∈ before ++ field, decide (character ≠ '\n') = true := by
      intro character member
      rw [decide_eq_true_eq]
      rintro rfl
      rcases List.mem_append.mp member with early | late
      · exact noFeed early
      · exact absurd (solid _ late) (by decide)
    refine ⟨before, after.takeWhile (· ≠ '\n'), ?_, count, ends, ?_⟩
    · rw [← List.append_assoc, List.takeWhile_append_of_pos inside, List.append_assoc]
    · cases after with
      | nil => exact .inl rfl
      | cons character after =>
          by_cases feed : character = '\n'
          · exact .inl (by simp [feed])
          · right
            simpa [startsBlank, feed] using starts

end Position

end Text
