import BpfAgent.Lib.Text

/-!
# IPv4 addresses in dotted decimal notation

The textual form of an address is strict: four numbers below 256 without
leading zeros, separated by single dots, and nothing else.  Every address has
therefore exactly one spelling, the one it is displayed with.
-/

structure Ipv4Addr where
  first : UInt8
  second : UInt8
  third : UInt8
  fourth : UInt8
  deriving DecidableEq

namespace Ipv4Addr

def octets (address : Ipv4Addr) : List UInt8 :=
  [address.first, address.second, address.third, address.fourth]

def byteLength : List Char → Nat
  | [] => 0
  | character :: rest => character.utf8Size + byteLength rest

/-- The number at the start of the text: three digits at most, no leading zero. -/
def readNumber (text : List Char) : Option (UInt8 × List Char) :=
  let digits := text.takeWhile Char.isDigit
  if digits = [] ∨ 3 < digits.length then
    none
  else if digits.head? = some '0' ∧ 1 < digits.length then
    none
  else
    let value := Nat.ofDigitChars 10 digits 0
    if value < 256 then some (value.toUInt8, text.dropWhile Char.isDigit) else none

/-- The number after a dot. -/
def readGroup : List Char → Option (UInt8 × List Char)
  | '.' :: text => readNumber text
  | _ => none

def parse (text : List Char) : Option Ipv4Addr := do
  if 15 < byteLength text then failure
  let (first, text) ← readNumber text
  let (second, text) ← readGroup text
  let (third, text) ← readGroup text
  let (fourth, text) ← readGroup text
  if text = [] then some ⟨first, second, third, fourth⟩ else none

def spell (octet : UInt8) : List Char := Nat.toDigits 10 octet.toNat

def display (address : Ipv4Addr) : List Char :=
  spell address.first ++ '.' :: (spell address.second ++ '.' ::
    (spell address.third ++ '.' :: spell address.fourth))

def Ends (text : List Char) : Prop := text.head?.all (fun character => !character.isDigit) = true

theorem ends_nil : Ends [] := rfl

theorem ends_dot (text : List Char) : Ends ('.' :: text) := rfl

theorem takeWhile_spell (octet : UInt8) {rest : List Char} (ends : Ends rest) :
    (spell octet ++ rest).takeWhile Char.isDigit = spell octet ∧
      (spell octet ++ rest).dropWhile Char.isDigit = rest := by
  have digits : ∀ character ∈ spell octet, character.isDigit = true :=
    fun _ member => Text.isDigit_toDigits member
  rw [List.takeWhile_append_of_pos digits, List.dropWhile_append_of_pos digits]
  cases rest with
  | nil => simp
  | cons character rest =>
      have other : character.isDigit = false := by simpa [Ends] using ends
      simp [other]

theorem length_spell (octet : UInt8) : (spell octet).length ≤ 3 := by
  apply (Nat.length_toDigits_le_iff (by decide) (by decide)).mpr
  exact Nat.lt_of_lt_of_le octet.toNat_lt (by decide)

theorem head_spell (octet : UInt8) :
    ¬((spell octet).head? = some '0' ∧ 1 < (spell octet).length) := by
  rintro ⟨leading, long⟩
  have large : 10 ≤ octet.toNat := by
    by_contra small
    rw [spell, Nat.toDigits_of_lt_base (Nat.not_le.mp small), List.length_singleton] at long
    exact Nat.lt_irrefl 1 long
  exact Text.head_toDigits_ne_zero large leading

theorem readNumber_spell (octet : UInt8) {rest : List Char} (ends : Ends rest) :
    readNumber (spell octet ++ rest) = some (octet, rest) := by
  obtain ⟨taken, dropped⟩ := takeWhile_spell octet ends
  have value : Nat.ofDigitChars 10 (spell octet) 0 = octet.toNat :=
    Nat.ofDigitChars_ten_toDigits
  have short : ¬(spell octet = [] ∨ 3 < (spell octet).length) := by
    rintro (empty | long)
    · exact Nat.toDigits_ne_nil empty
    · exact absurd (length_spell octet) (Nat.not_le.mpr long)
  simp only [readNumber, taken, dropped, value]
  rw [if_neg short, if_neg (head_spell octet), if_pos octet.toNat_lt]
  simp

theorem readNumber_eq_some_iff {text rest : List Char} {octet : UInt8} :
    readNumber text = some (octet, rest) ↔ text = spell octet ++ rest ∧ Ends rest := by
  constructor
  · intro read
    simp only [readNumber] at read
    split at read
    · cases read
    next nonempty =>
      split at read
      · cases read
      next canonical =>
        split at read
        next below =>
          obtain ⟨rfl, rfl⟩ := Prod.mk.inj (Option.some.inj read)
          have spelled : spell (Nat.ofDigitChars 10 (text.takeWhile Char.isDigit) 0).toUInt8 =
              text.takeWhile Char.isDigit := by
            rw [spell, Nat.toUInt8, UInt8.toNat_ofNat_of_lt' below]
            apply Text.toDigits_ofDigitChars
            · exact fun character member => List.all_eq_true.mp List.all_takeWhile _ member
            · exact fun empty => nonempty (.inl empty)
            · exact canonical
          refine ⟨by rw [spelled, List.takeWhile_append_dropWhile], ?_⟩
          cases rest : text.dropWhile Char.isDigit with
          | nil => exact ends_nil
          | cons character tail =>
              have other := List.head?_dropWhile_not Char.isDigit text
              simpa [Ends, rest] using other
        next => cases read
  · rintro ⟨rfl, ends⟩
    exact readNumber_spell octet ends

theorem readGroup_eq_some_iff {text rest : List Char} {octet : UInt8} :
    readGroup text = some (octet, rest) ↔ text = '.' :: (spell octet ++ rest) ∧ Ends rest := by
  unfold readGroup
  split
  next after => rw [readNumber_eq_some_iff, List.cons.injEq, and_iff_right rfl]
  next _ other =>
    refine iff_of_false (by simp) ?_
    rintro ⟨rfl, -⟩
    exact other _ rfl

theorem byteLength_append (first second : List Char) :
    byteLength (first ++ second) = byteLength first + byteLength second := by
  induction first with
  | nil => exact (Nat.zero_add _).symm
  | cons character first inductionHypothesis =>
      rw [List.cons_append, byteLength, byteLength, inductionHypothesis, Nat.add_assoc]

theorem byteLength_of_ascii {text : List Char}
    (ascii : ∀ character ∈ text, character.utf8Size = 1) : byteLength text = text.length := by
  induction text with
  | nil => rfl
  | cons character rest inductionHypothesis =>
      rw [byteLength, ascii character List.mem_cons_self, Nat.add_comm, List.length_cons,
        inductionHypothesis fun other member => ascii other (List.mem_cons_of_mem _ member)]

theorem byteLength_spell (octet : UInt8) : byteLength (spell octet) ≤ 3 := by
  have ascii : ∀ character ∈ spell octet, character.utf8Size = 1 := by
    intro character member
    have digit := Text.isDigit_toDigits member
    simp only [Char.isDigit, Bool.and_eq_true, decide_eq_true_eq] at digit
    rw [Char.utf8Size, if_pos (UInt32.le_trans digit.2 (by decide))]
  rw [byteLength_of_ascii ascii]
  exact length_spell octet

theorem byteLength_display (address : Ipv4Addr) : byteLength (display address) ≤ 15 := by
  have dot : ∀ text, byteLength ('.' :: text) = 1 + byteLength text := fun _ => rfl
  have first := byteLength_spell address.first
  have second := byteLength_spell address.second
  have third := byteLength_spell address.third
  have fourth := byteLength_spell address.fourth
  simp only [display, byteLength_append, dot]
  omega

/-- An address has one spelling, and nothing else is read as an address. -/
theorem parse_eq_some_iff {text : List Char} {address : Ipv4Addr} :
    parse text = some address ↔ text = display address := by
  constructor
  · intro parsed
    simp only [parse, Option.bind_eq_bind] at parsed
    split at parsed
    · cases parsed
    · simp only [Option.bind_eq_some_iff, Prod.exists] at parsed
      obtain ⟨first, rest1, read1, second, rest2, read2, third, rest3, read3, fourth, rest4, read4,
        final⟩ := parsed
      split at final
      next empty =>
        cases final
        rw [readNumber_eq_some_iff] at read1
        rw [readGroup_eq_some_iff] at read2 read3 read4
        rw [read1.1, read2.1, read3.1, read4.1, empty, List.append_nil]
        rfl
      · cases final
  · rintro rfl
    have short : ¬15 < byteLength (display address) := Nat.not_lt.mpr (byteLength_display address)
    have last : readGroup ('.' :: spell address.fourth) = some (address.fourth, []) := by
      rw [readGroup_eq_some_iff, List.append_nil]
      exact ⟨rfl, ends_nil⟩
    simp only [parse, Option.bind_eq_bind, if_neg short]
    rw [display, readNumber_eq_some_iff.mpr ⟨rfl, ends_dot _⟩]
    simp only [Option.bind_some]
    rw [readGroup_eq_some_iff.mpr ⟨rfl, ends_dot _⟩]
    simp only [Option.bind_some]
    rw [readGroup_eq_some_iff.mpr ⟨rfl, ends_dot _⟩]
    simp only [Option.bind_some, last, if_pos]

def text (address : Ipv4Addr) : String := String.ofList address.display

theorem parse_toList_eq_some_iff {spelling : String} {address : Ipv4Addr} :
    parse spelling.toList = some address ↔ spelling = address.text := by
  rw [parse_eq_some_iff, text, ← String.toList_inj, String.toList_ofList]

example : parse "10.10.10.253".toList = some ⟨10, 10, 10, 253⟩ := by decide

example : parse "10.10.010.253".toList = none := by decide

end Ipv4Addr
