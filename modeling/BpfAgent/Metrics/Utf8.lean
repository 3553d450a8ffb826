import BpfAgent.Uprobe.Program

/-!
# Decoded text and its bytes

The lossy decoder turns one sequence of bytes after the other into a character.
A byte below 0x80 never belongs to the sequence before it, so a text can be
cut in front of such a byte without changing what the parts decode to.
-/

namespace BpfAgent.Metrics

open Uprobe (fromUtf8Lossy replacement isContinuation secondAllowed decodeTwo decodeThree
  decodeFour)

/-- What the bytes after the first one of a sequence have to satisfy. -/
def continuations (first : UInt8) : List (UInt8 → Bool) :=
  if first < 0x80 then []
  else if 0xc2 ≤ first ∧ first ≤ 0xdf then [isContinuation]
  else if 0xe0 ≤ first ∧ first ≤ 0xef then [secondAllowed first, isContinuation]
  else if 0xf0 ≤ first ∧ first ≤ 0xf4 then [secondAllowed first, isContinuation, isContinuation]
  else []

/-- The longest run of bytes that satisfy one condition each. -/
def continued : List (UInt8 → Bool) → List UInt8 → List UInt8
  | accepts :: later, byte :: rest => if accepts byte then byte :: continued later rest else []
  | _, _ => []

/-- The character of a sequence, from its first byte and the run behind it. -/
def charOf (first : UInt8) (run : List UInt8) : Char :=
  if first < 0x80 then Char.ofNat first.toNat
  else
    match continuations first, run with
    | [_], [second] => decodeTwo first second
    | [_, _], [second, third] => decodeThree first second third
    | [_, _, _], [second, third, fourth] => decodeFour first second third fourth
    | _, _ => replacement

theorem fromUtf8Lossy_cons (first : UInt8) (rest : List UInt8) :
    fromUtf8Lossy (first :: rest) =
      charOf first (continued (continuations first) rest) ::
        fromUtf8Lossy (rest.drop (continued (continuations first) rest).length) := by
  rw [Uprobe.fromUtf8Lossy.eq_def]
  unfold charOf continuations
  dsimp only
  split_ifs
  · simp [continued]
  · rcases rest with _ | ⟨second, rest⟩
    · simp [continued, Uprobe.fromUtf8Lossy.eq_1]
    · by_cases allowed : isContinuation second <;> simp [continued, allowed]
  · rcases rest with _ | ⟨second, _ | ⟨third, rest⟩⟩
    · simp [continued, Uprobe.fromUtf8Lossy.eq_1]
    · by_cases allowed : secondAllowed first second <;> simp [continued, allowed, Uprobe.fromUtf8Lossy.eq_1]
    · by_cases allowed : secondAllowed first second <;>
        by_cases next : isContinuation third <;> simp [continued, allowed, next]
  · rcases rest with _ | ⟨second, _ | ⟨third, _ | ⟨fourth, rest⟩⟩⟩
    · simp [continued, Uprobe.fromUtf8Lossy.eq_1]
    · by_cases allowed : secondAllowed first second <;> simp [continued, allowed, Uprobe.fromUtf8Lossy.eq_1]
    · by_cases allowed : secondAllowed first second <;>
        by_cases next : isContinuation third <;> simp [continued, allowed, next, Uprobe.fromUtf8Lossy.eq_1]
    · by_cases allowed : secondAllowed first second <;>
        by_cases next : isContinuation third <;>
          by_cases last : isContinuation fourth <;> simp [continued, allowed, next, last]
  · simp [continued]

theorem fromUtf8Lossy_ascii {first : UInt8} (ascii : first < 0x80) (rest : List UInt8) :
    fromUtf8Lossy (first :: rest) = Char.ofNat first.toNat :: fromUtf8Lossy rest := by
  simp [fromUtf8Lossy_cons, charOf, continuations, ascii, continued]

theorem fromUtf8Lossy_eq_nil_iff {bytes : List UInt8} : fromUtf8Lossy bytes = [] ↔ bytes = [] := by
  cases bytes with
  | nil => exact iff_of_true Uprobe.fromUtf8Lossy.eq_1 rfl
  | cons first rest => simp [fromUtf8Lossy_cons]

section Continued

variable {conditions : List (UInt8 → Bool)} {byte : UInt8} {front : List UInt8}

theorem length_continued_le :
    (continued conditions front).length ≤ front.length ∧
      (continued conditions front).length ≤ conditions.length := by
  induction front generalizing conditions with
  | nil => cases conditions <;> simp [continued]
  | cons first front inductionHypothesis =>
      cases conditions with
      | nil => simp [continued]
      | cons accepts later =>
          rw [continued]
          split
          · exact ⟨Nat.succ_le_succ inductionHypothesis.1, Nat.succ_le_succ inductionHypothesis.2⟩
          · exact ⟨Nat.zero_le _, Nat.zero_le _⟩

theorem continued_append_of_refused (refused : ∀ accepts ∈ conditions, accepts byte = false)
    (rest : List UInt8) :
    continued conditions (front ++ byte :: rest) = continued conditions front := by
  induction front generalizing conditions with
  | nil =>
      cases conditions with
      | nil => rfl
      | cons accepts later => simp [continued, refused accepts List.mem_cons_self]
  | cons first front inductionHypothesis =>
      cases conditions with
      | nil => rfl
      | cons accepts later =>
          have shorter := inductionHypothesis fun other member =>
            refused other (List.mem_cons_of_mem _ member)
          rw [List.cons_append, continued, continued, shorter]

theorem continued_append_of_complete
    (complete : (continued conditions front).length = conditions.length) (rest : List UInt8) :
    continued conditions (front ++ rest) = continued conditions front := by
  induction front generalizing conditions with
  | nil =>
      cases conditions with
      | nil => cases rest <;> rfl
      | cons accepts later => cases complete
  | cons first front inductionHypothesis =>
      cases conditions with
      | nil => rfl
      | cons accepts later =>
          rw [continued] at complete
          split at complete
          next accepted =>
            rw [List.cons_append, continued, continued, if_pos accepted, if_pos accepted,
              inductionHypothesis (Nat.succ.inj complete)]
          next => cases complete

end Continued

theorem isContinuation_ascii {byte : UInt8} (ascii : byte < 0x80) :
    isContinuation byte = false := by
  rw [isContinuation, decide_eq_false_iff_not]
  intro masked
  have value := congrArg UInt8.toNat masked
  rw [UInt8.toNat_and] at value
  have below := UInt8.lt_iff_toNat_lt.mp ascii
  have smaller : byte.toNat &&& (0xc0 : UInt8).toNat ≤ byte.toNat := Nat.and_le_left
  omega

theorem secondAllowed_ascii {byte : UInt8} (ascii : byte < 0x80) (first : UInt8) :
    secondAllowed first byte = false := by
  have below : byte.toNat < 0x80 := UInt8.lt_iff_toNat_lt.mp ascii
  have refused : ∀ low : UInt8, 0x80 ≤ low → ¬low ≤ byte := by
    intro low bound within
    rw [UInt8.le_iff_toNat_le] at bound within
    have : (0x80 : UInt8).toNat = 0x80 := rfl
    omega
  unfold secondAllowed
  split_ifs <;> rw [decide_eq_false (refused _ (by decide))] <;> rfl

theorem continuations_ascii {byte : UInt8} (ascii : byte < 0x80) (first : UInt8) :
    ∀ accepts ∈ continuations first, accepts byte = false := by
  unfold continuations
  split_ifs <;> simp [isContinuation_ascii ascii, secondAllowed_ascii ascii]

theorem fromUtf8Lossy_append_ascii {byte : UInt8} (ascii : byte < 0x80) (rest : List UInt8)
    (front : List UInt8) :
    fromUtf8Lossy (front ++ byte :: rest) =
      fromUtf8Lossy front ++ fromUtf8Lossy (byte :: rest) := by
  induction measured : front.length using Nat.strongRecOn generalizing front with
  | ind size inductionHypothesis =>
      cases front with
      | nil => simp [Uprobe.fromUtf8Lossy.eq_1]
      | cons first front =>
          have run := @continued_append_of_refused _ byte front (continuations_ascii ascii first) rest
          have fits := (@length_continued_le (continuations first) front).1
          rw [List.cons_append, fromUtf8Lossy_cons, fromUtf8Lossy_cons first front, run,
            List.drop_append_of_le_length fits, List.cons_append]
          congr 1
          refine inductionHypothesis _ ?_ _ rfl
          rw [← measured, List.length_drop, List.length_cons]
          omega

theorem charOf_eq_replacement {first : UInt8} {run : List UInt8}
    (incomplete : run.length < (continuations first).length) : charOf first run = replacement := by
  unfold charOf
  split_ifs with ascii
  · simp [continuations, ascii] at incomplete
  · split
    next two => simp [two] at incomplete
    next three => simp [three] at incomplete
    next four => simp [four] at incomplete
    next => rfl

/-- A character that stands for its bytes does so whatever follows them. -/
theorem head_fromUtf8Lossy_append {front : List UInt8} {character : Char}
    (head : (fromUtf8Lossy front).head? = some character) (proper : character ≠ replacement)
    (rest : List UInt8) : (fromUtf8Lossy (front ++ rest)).head? = some character := by
  cases front with
  | nil => simp [Uprobe.fromUtf8Lossy.eq_1] at head
  | cons first front =>
      rw [fromUtf8Lossy_cons, List.head?_cons, Option.some.injEq] at head
      have complete : (continued (continuations first) front).length =
          (continuations first).length := by
        refine Nat.le_antisymm length_continued_le.2 ?_
        rw [← Nat.not_lt]
        intro incomplete
        exact proper (head.symm.trans (charOf_eq_replacement incomplete))
      rw [List.cons_append, fromUtf8Lossy_cons, List.head?_cons,
        continued_append_of_complete complete, head]

section Values

variable {first second third fourth : UInt8}

theorem toNat_ofNat_of_valid {value : Nat} (valid : value.isValidChar) :
    (Char.ofNat value).toNat = value := by
  rw [Char.ofNat, dif_pos valid]
  rfl

theorem toNat_and_mask {mask : UInt8} {width : Nat} (bits : mask.toNat = 2 ^ width - 1)
    (byte : UInt8) : (byte &&& mask).toNat = byte.toNat % 2 ^ width := by
  rw [UInt8.toNat_and, bits, Nat.and_two_pow_sub_one_eq_mod]

theorem high_ofNat {value : Nat} (high : 0x80 ≤ value) (valid : value.isValidChar) :
    0x80 ≤ (Char.ofNat value).toNat := by
  rwa [toNat_ofNat_of_valid valid]

theorem decodeTwo_high (range : 0xc2 ≤ first ∧ first ≤ 0xdf) :
    0x80 ≤ (decodeTwo first second).toNat := by
  have low : 0xc2 ≤ first.toNat := UInt8.le_iff_toNat_le.mp range.1
  have high : first.toNat ≤ 0xdf := UInt8.le_iff_toNat_le.mp range.2
  rw [decodeTwo, toNat_and_mask (show (0x1f : UInt8).toNat = 2 ^ 5 - 1 from rfl),
    toNat_and_mask (show (0x3f : UInt8).toNat = 2 ^ 6 - 1 from rfl)]
  apply high_ofNat
  · omega
  · exact .inl (by omega)

/-- The second byte rules out what would fit into fewer bytes, surrogates and
what lies beyond the last character. -/
theorem secondAllowed_toNat (allowed : secondAllowed first second = true) :
    (first.toNat = 0xe0 → 0xa0 ≤ second.toNat) ∧ (first.toNat = 0xed → second.toNat ≤ 0x9f) ∧
      (first.toNat = 0xf0 → 0x90 ≤ second.toNat) ∧ (first.toNat = 0xf4 → second.toNat ≤ 0x8f) ∧
      0x80 ≤ second.toNat ∧ second.toNat ≤ 0xbf := by
  have same : ∀ value : UInt8, first = value ↔ first.toNat = value.toNat :=
    fun value => UInt8.toNat_inj.symm
  simp only [secondAllowed, same, UInt8.le_iff_toNat_le, UInt8.reduceToNat] at allowed
  split_ifs at allowed <;>
    (rw [Bool.and_eq_true, decide_eq_true_eq, decide_eq_true_eq] at allowed; omega)

theorem decodeThree_high (range : 0xe0 ≤ first ∧ first ≤ 0xef)
    (allowed : secondAllowed first second = true) :
    0x80 ≤ (decodeThree first second third).toNat := by
  have low : 0xe0 ≤ first.toNat := UInt8.le_iff_toNat_le.mp range.1
  have high : first.toNat ≤ 0xef := UInt8.le_iff_toNat_le.mp range.2
  have values := secondAllowed_toNat allowed
  rw [decodeThree, toNat_and_mask (show (0x0f : UInt8).toNat = 2 ^ 4 - 1 from rfl),
    toNat_and_mask (show (0x3f : UInt8).toNat = 2 ^ 6 - 1 from rfl),
    toNat_and_mask (show (0x3f : UInt8).toNat = 2 ^ 6 - 1 from rfl)]
  apply high_ofNat
  · omega
  · unfold Nat.isValidChar
    omega

theorem decodeFour_high (range : 0xf0 ≤ first ∧ first ≤ 0xf4)
    (allowed : secondAllowed first second = true) :
    0x80 ≤ (decodeFour first second third fourth).toNat := by
  have low : 0xf0 ≤ first.toNat := UInt8.le_iff_toNat_le.mp range.1
  have high : first.toNat ≤ 0xf4 := UInt8.le_iff_toNat_le.mp range.2
  have values := secondAllowed_toNat allowed
  rw [decodeFour, toNat_and_mask (show (0x07 : UInt8).toNat = 2 ^ 3 - 1 from rfl),
    toNat_and_mask (show (0x3f : UInt8).toNat = 2 ^ 6 - 1 from rfl),
    toNat_and_mask (show (0x3f : UInt8).toNat = 2 ^ 6 - 1 from rfl),
    toNat_and_mask (show (0x3f : UInt8).toNat = 2 ^ 6 - 1 from rfl)]
  apply high_ofNat
  · omega
  · unfold Nat.isValidChar
    omega

theorem charOf_high (high : ¬first < 0x80) (rest : List UInt8) :
    0x80 ≤ (charOf first (continued (continuations first) rest)).toNat := by
  have malformed : 0x80 ≤ replacement.toNat := by decide
  unfold charOf continuations
  split_ifs with two three four
  · rcases rest with _ | ⟨second, rest⟩
    · exact malformed
    · by_cases allowed : isContinuation second
      · simpa [continued, allowed] using decodeTwo_high two
      · simpa [continued, allowed] using malformed
  · rcases rest with _ | ⟨second, _ | ⟨third, rest⟩⟩
    · exact malformed
    · by_cases allowed : secondAllowed first second <;> simpa [continued, allowed] using malformed
    · by_cases allowed : secondAllowed first second
      · by_cases next : isContinuation third
        · simpa [continued, allowed, next] using decodeThree_high three allowed
        · simpa [continued, allowed, next] using malformed
      · simpa [continued, allowed] using malformed
  · rcases rest with _ | ⟨second, _ | ⟨third, _ | ⟨fourth, rest⟩⟩⟩
    · exact malformed
    · by_cases allowed : secondAllowed first second <;> simpa [continued, allowed] using malformed
    · by_cases allowed : secondAllowed first second
      · by_cases next : isContinuation third <;> simpa [continued, allowed, next] using malformed
      · simpa [continued, allowed] using malformed
    · by_cases allowed : secondAllowed first second
      · by_cases next : isContinuation third
        · by_cases last : isContinuation fourth
          · simpa [continued, allowed, next, last] using decodeFour_high four allowed
          · simpa [continued, allowed, next, last] using malformed
        · simpa [continued, allowed, next] using malformed
      · simpa [continued, allowed] using malformed
  · exact malformed

end Values

theorem toNat_ofNat_byte (byte : UInt8) : (Char.ofNat byte.toNat).toNat = byte.toNat := by
  have bound : byte.toNat < 256 := byte.toNat_lt
  exact toNat_ofNat_of_valid (.inl (by omega))

/-- A character below 0x80 is a byte of its own, and what stands before and
behind it decodes separately. -/
theorem split_at_ascii {bytes : List UInt8} {before after : List Char} {byte : UInt8}
    (ascii : byte < 0x80)
    (text : fromUtf8Lossy bytes = before ++ Char.ofNat byte.toNat :: after) :
    ∃ front back, bytes = front ++ byte :: back ∧ fromUtf8Lossy front = before ∧
      fromUtf8Lossy back = after := by
  induction measured : bytes.length using Nat.strongRecOn generalizing bytes before with
  | ind size inductionHypothesis =>
      cases bytes with
      | nil => simp [Uprobe.fromUtf8Lossy.eq_1] at text
      | cons first rest =>
          cases before with
          | nil =>
              by_cases low : first < 0x80
              · rw [fromUtf8Lossy_ascii low, List.nil_append, List.cons.injEq] at text
                have value := congrArg Char.toNat text.1
                rw [toNat_ofNat_byte, toNat_ofNat_byte, UInt8.toNat_inj] at value
                exact ⟨[], rest, by rw [value]; rfl, Uprobe.fromUtf8Lossy.eq_1, text.2⟩
              · rw [fromUtf8Lossy_cons, List.nil_append, List.cons.injEq] at text
                have high := charOf_high low rest
                rw [text.1, toNat_ofNat_byte] at high
                exact absurd (UInt8.lt_iff_toNat_lt.mp ascii) (Nat.not_lt.mpr high)
          | cons head before =>
              have decoded := text
              rw [fromUtf8Lossy_cons, List.cons_append, List.cons.injEq] at text
              have shorter : (rest.drop (continued (continuations first) rest).length).length <
                  size := by
                rw [← measured, List.length_drop, List.length_cons]
                omega
              obtain ⟨front, back, split, -, behind⟩ := inductionHypothesis _ shorter text.2 rfl
              have whole : first :: rest =
                  (first :: (rest.take (continued (continuations first) rest).length ++ front)) ++
                    byte :: back := by
                rw [List.cons_append, List.append_assoc, ← split, List.take_append_drop]
              refine ⟨_, back, whole, ?_, behind⟩
              rw [whole, fromUtf8Lossy_append_ascii ascii, fromUtf8Lossy_ascii ascii,
                behind] at decoded
              exact List.append_cancel_right decoded

section Word

variable {word : List UInt8}

def asciiText (word : List UInt8) : List Char := word.map fun byte => Char.ofNat byte.toNat

theorem fromUtf8Lossy_word_append (ascii : ∀ byte ∈ word, byte < 0x80) (back : List UInt8) :
    fromUtf8Lossy (word ++ back) = asciiText word ++ fromUtf8Lossy back := by
  induction word with
  | nil => rfl
  | cons byte word inductionHypothesis =>
      rw [List.cons_append, fromUtf8Lossy_ascii (ascii byte List.mem_cons_self),
        inductionHypothesis fun other member => ascii other (List.mem_cons_of_mem _ member)]
      rfl

theorem fromUtf8Lossy_append_word (ascii : ∀ byte ∈ word, byte < 0x80) (nonempty : word ≠ [])
    (front back : List UInt8) :
    fromUtf8Lossy (front ++ (word ++ back)) =
      fromUtf8Lossy front ++ (asciiText word ++ fromUtf8Lossy back) := by
  rw [← fromUtf8Lossy_word_append ascii]
  cases word with
  | nil => exact absurd rfl nonempty
  | cons byte word => exact fromUtf8Lossy_append_ascii (ascii byte List.mem_cons_self) _ _

theorem split_after_word {bytes : List UInt8} {after : List Char}
    (ascii : ∀ byte ∈ word, byte < 0x80) (text : fromUtf8Lossy bytes = asciiText word ++ after) :
    ∃ back, bytes = word ++ back ∧ fromUtf8Lossy back = after := by
  induction word generalizing bytes with
  | nil => exact ⟨bytes, rfl, text⟩
  | cons byte word inductionHypothesis =>
      have first : fromUtf8Lossy bytes = [] ++ Char.ofNat byte.toNat :: (asciiText word ++ after) :=
        text
      obtain ⟨front, back, split, nothing, rest⟩ :=
        split_at_ascii (ascii byte List.mem_cons_self) first
      obtain ⟨behind, continues, decoded⟩ := inductionHypothesis
        (fun other member => ascii other (List.mem_cons_of_mem _ member)) rest
      refine ⟨behind, ?_, decoded⟩
      rw [split, fromUtf8Lossy_eq_nil_iff.mp nothing, continues]
      rfl

theorem split_at_word {bytes : List UInt8} {before after : List Char}
    (ascii : ∀ byte ∈ word, byte < 0x80) (nonempty : word ≠ [])
    (text : fromUtf8Lossy bytes = before ++ (asciiText word ++ after)) :
    ∃ front back, bytes = front ++ (word ++ back) ∧ fromUtf8Lossy front = before ∧
      fromUtf8Lossy back = after := by
  cases word with
  | nil => exact absurd rfl nonempty
  | cons byte word =>
      obtain ⟨front, back, split, decoded, rest⟩ :=
        split_at_ascii (ascii byte List.mem_cons_self) text
      obtain ⟨behind, rfl, last⟩ := split_after_word
        (fun other member => ascii other (List.mem_cons_of_mem _ member)) rest
      exact ⟨front, behind, split, decoded, last⟩

end Word

end BpfAgent.Metrics
