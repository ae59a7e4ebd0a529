import Brainfuck.MemorySize
import Mathlib.Data.Nat.Digits.Defs
import Mathlib.Tactic.Ring

/-!
# Numerals of memory sizes

The decimal value of digits is said without regard to how they are read (`Text.decimal`).  Digits are
read from left to right below a limit, and the first problem counts (`Text.readDigits_spec`): a value
that has reached the limit is too large whatever follows it, and before that a character that is no
digit is refused.  For memory sizes, with their blanks, underscores and sign and with the messages
for those that are refused, this is `parseMemorySize_classification`.
-/

namespace Brainfuck

namespace Text

variable {limit value n : ℕ} {c : Char} {cs ds : List Char}

/-! ## Digits -/

/-- All characters are digits, of which there may be none. -/
def AllDigits (cs : List Char) : Prop := ∀ c ∈ cs, c.isDigit = true

/-- The number that digits spell. -/
def decimal (cs : List Char) : ℕ := Nat.ofDigits 10 (cs.reverse.map fun c => c.toNat - '0'.toNat)

/-- The number that digits spell behind those of a value. -/
def extend (value : ℕ) (cs : List Char) : ℕ := value * 10 ^ cs.length + decimal cs

theorem allDigits_nil : AllDigits [] := nofun

theorem allDigits_cons : AllDigits (c :: cs) ↔ c.isDigit = true ∧ AllDigits cs := List.forall_mem_cons

@[simp] theorem decimal_nil : decimal [] = 0 := rfl

theorem decimal_cons (c : Char) (cs : List Char) :
    decimal (c :: cs) = (c.toNat - '0'.toNat) * 10 ^ cs.length + decimal cs := by
  rw [decimal, List.reverse_cons, List.map_append, Nat.ofDigits_append, List.length_map,
    List.length_reverse, List.map_singleton, Nat.ofDigits_singleton, decimal]
  ring

@[simp] theorem extend_zero (cs : List Char) : extend 0 cs = decimal cs := by simp [extend]

@[simp] theorem extend_nil (value : ℕ) : extend value [] = value := by simp [extend]

theorem extend_cons (value : ℕ) (c : Char) (cs : List Char) :
    extend value (c :: cs) = extend (10 * value + (c.toNat - '0'.toNat)) cs := by
  rw [extend, decimal_cons, List.length_cons, extend]
  ring

/-- More digits do not make a number smaller. -/
theorem extend_le_extend (h : ds <+: cs) (value : ℕ) : extend value ds ≤ extend value cs := by
  obtain ⟨es, rfl⟩ := h
  induction ds generalizing value with
  | nil =>
    rw [extend_nil, List.nil_append, extend]
    exact (Nat.le_mul_of_pos_right value (Nat.pow_pos (by decide))).trans (Nat.le_add_right _ _)
  | cons d ds ih =>
    rw [List.cons_append, extend_cons, extend_cons]
    exact ih _

/-! ## Reading -/

/-- Behind those of a value there are digits that bring it up to the limit. -/
def Overflows (limit value : ℕ) (cs : List Char) : Prop :=
  ∃ ds, ds <+: cs ∧ AllDigits ds ∧ limit ≤ extend value ds

theorem not_overflows_nil (h : value < limit) : ¬ Overflows limit value [] := by
  rintro ⟨ds, hds, -, hle⟩
  rw [List.prefix_nil.1 hds, extend_nil] at hle
  omega

theorem overflows_cons_iff (h : value < limit) : Overflows limit value (c :: cs) ↔
    c.isDigit = true ∧ Overflows limit (10 * value + (c.toNat - '0'.toNat)) cs := by
  constructor
  · rintro ⟨ds, hds, digits, hle⟩
    cases ds with
    | nil =>
      rw [extend_nil] at hle
      omega
    | cons d ds =>
      obtain ⟨rfl, hrest⟩ := List.cons_prefix_cons.1 hds
      rw [allDigits_cons] at digits
      rw [extend_cons] at hle
      exact ⟨digits.1, ds, hrest, digits.2, hle⟩
  · rintro ⟨hc, ds, hds, digits, hle⟩
    refine ⟨c :: ds, List.cons_prefix_cons.2 ⟨rfl, hds⟩, allDigits_cons.2 ⟨hc, digits⟩, ?_⟩
    rwa [extend_cons]

theorem overflows_of_le (h : limit ≤ value) (cs : List Char) : Overflows limit value cs :=
  ⟨[], List.nil_prefix, allDigits_nil, h.trans_eq (extend_nil value).symm⟩

/-- Nothing but digits overflows if and only if their number is too large. -/
theorem AllDigits.overflows_iff (h : AllDigits cs) (value : ℕ) :
    Overflows limit value cs ↔ limit ≤ extend value cs := by
  constructor
  · rintro ⟨ds, hds, -, hle⟩
    exact hle.trans (extend_le_extend hds value)
  · intro hle
    exact ⟨cs, List.prefix_rfl, h, hle⟩

theorem digit?_of_isDigit (h : c.isDigit = true) : digit? c = some (c.toNat - '0'.toNat) := if_pos h

theorem digit?_of_not_isDigit (h : ¬ c.isDigit = true) : digit? c = none := if_neg h

/-- What is read behind the digits of a value. -/
theorem readDigits_spec (h : value < limit) (cs : List Char) :
    match readDigits limit value cs with
    | .ok n => AllDigits cs ∧ extend value cs = n ∧ n < limit
    | .error .tooLarge => Overflows limit value cs
    | .error .invalidDigit => ¬ AllDigits cs ∧ ¬ Overflows limit value cs
    | .error .empty => False := by
  induction cs generalizing value with
  | nil => exact ⟨allDigits_nil, extend_nil value, h⟩
  | cons c cs ih =>
    rw [allDigits_cons, overflows_cons_iff h, extend_cons]
    by_cases hc : c.isDigit = true
    · simp only [readDigits, digit?_of_isDigit hc, hc, true_and]
      by_cases hlt : 10 * value + (c.toNat - '0'.toNat) < limit
      · rw [if_pos hlt]
        exact ih hlt
      · rw [if_neg hlt]
        exact overflows_of_le (not_lt.1 hlt) cs
    · simp [readDigits, digit?_of_not_isDigit hc, hc]

/-- A text without a plus sign in front of other characters. -/
def unsigned : List Char → List Char
  | '+' :: c :: cs => c :: cs
  | cs => cs

theorem unsigned_eq_nil_iff : unsigned cs = [] ↔ cs = [] := by
  unfold unsigned
  split <;> simp

theorem readNumeral_eq (h : cs ≠ []) (limit : ℕ) :
    readNumeral limit cs = readDigits limit 0 (unsigned cs) := by
  unfold readNumeral
  split
  · exact absurd rfl h
  · rfl
  · next hsign => rw [unsigned.eq_2 _ hsign]

end Text

/-! ## Memory sizes -/

open Text

/-- What comes of a text where a memory size is wanted, by its numeral without blanks at both ends and
without underscores. -/
inductive SizeReading (value : String) (numeral : List Char) : Except MemorySizeError ℕ → Prop
  | size : unsigned numeral ≠ [] → AllDigits (unsigned numeral) →
      1 ≤ decimal (unsigned numeral) → decimal (unsigned numeral) < 2 ^ 64 →
      SizeReading value numeral (.ok (decimal (unsigned numeral)))
  | zero : unsigned numeral ≠ [] → AllDigits (unsigned numeral) →
      decimal (unsigned numeral) = 0 → SizeReading value numeral (.error .zero)
  | empty : numeral = [] → SizeReading value numeral (.error (.number value .empty))
  | tooLarge : Overflows (2 ^ 64) 0 (unsigned numeral) →
      SizeReading value numeral (.error (.number value .tooLarge))
  | invalidDigit : numeral ≠ [] → ¬ AllDigits (unsigned numeral) →
      ¬ Overflows (2 ^ 64) 0 (unsigned numeral) →
      SizeReading value numeral (.error (.number value .invalidDigit))

/-- The readings exclude each other. -/
theorem SizeReading.unique {value : String} {numeral : List Char} {r r' : Except MemorySizeError ℕ}
    (h : SizeReading value numeral r) (h' : SizeReading value numeral r') : r = r' := by
  have hempty : unsigned numeral = [] ↔ numeral = [] := unsigned_eq_nil_iff
  have hfits : numeral = [] → ¬ Overflows (2 ^ 64) 0 (unsigned numeral) := fun h =>
    hempty.2 h ▸ not_overflows_nil (by decide)
  have hsize (hd : AllDigits (unsigned numeral)) :
      Overflows (2 ^ 64) 0 (unsigned numeral) ↔ 2 ^ 64 ≤ decimal (unsigned numeral) := by
    rw [hd.overflows_iff, extend_zero]
  cases h with
  | size hne hd hpos hlt => cases h' <;> grind
  | zero hne hd hzero => cases h' <;> grind
  | empty hnil => cases h' <;> grind
  | tooLarge hover => cases h' <;> grind
  | invalidDigit hne hd hfit => cases h' <;> grind

theorem sizeReading_parseMemorySize (value : String) :
    SizeReading value (memorySizeNumeral value) (parseMemorySize value) := by
  unfold parseMemorySize
  by_cases hempty : memorySizeNumeral value = []
  · rw [hempty]
    exact .empty rfl
  · have hne : unsigned (memorySizeNumeral value) ≠ [] := unsigned_eq_nil_iff.not.2 hempty
    have spec := readDigits_spec (show 0 < memorySizeLimit by decide)
      (unsigned (memorySizeNumeral value))
    rw [readNumeral_eq hempty]
    cases hread : readDigits memorySizeLimit 0 (unsigned (memorySizeNumeral value)) with
    | error reason =>
      rw [hread] at spec
      cases reason with
      | empty => exact spec.elim
      | tooLarge => exact .tooLarge spec
      | invalidDigit => exact .invalidDigit hempty spec.1 spec.2
    | ok n =>
      rw [hread, extend_zero] at spec
      obtain ⟨digits, rfl, hlt⟩ := spec
      by_cases hzero : decimal (unsigned (memorySizeNumeral value)) = 0
      · simp only [hzero, if_true]
        exact .zero hne digits hzero
      · simp only [if_neg hzero]
        exact .size hne digits (Nat.one_le_iff_ne_zero.2 hzero) hlt

theorem parseMemorySize_eq_iff {value : String} {r : Except MemorySizeError ℕ} :
    parseMemorySize value = r ↔ SizeReading value (memorySizeNumeral value) r := by
  constructor
  · rintro rfl
    exact sizeReading_parseMemorySize value
  · exact (sizeReading_parseMemorySize value).unique

/-! ## Messages -/

/-- The causes have different texts. -/
theorem Text.NumeralError.text_injective {reason reason' : NumeralError}
    (h : reason.text = reason'.text) : reason = reason' := by
  cases reason <;> cases reason' <;> first | rfl | exact absurd h (by decide)

namespace MemorySizeError

/-- An error that shows no other text than the given one. -/
def Quotes (value : String) : MemorySizeError → Prop
  | number given _ => given = value
  | zero => True

/-- No cause is told like a size of zero. -/
theorem message_number_ne (value : String) (reason : NumeralError) :
    (number value reason).message ≠ zero.message := by
  intro h
  have hhead : (number value reason).message.toList.head? = some 'i' := by
    change ("invalid memory size '" ++ value ++ "': " ++ reason.text).toList.head? = some 'i'
    simp only [String.toList_append, List.append_assoc]
    rfl
  rw [h] at hhead
  exact absurd hhead (by decide)

/-- The message tells an error. -/
theorem eq_of_message_eq {value : String} {e e' : MemorySizeError} (quotes : e.Quotes value)
    (quotes' : e'.Quotes value) (h : e.message = e'.message) : e = e' := by
  cases e with
  | zero =>
    cases e' with
    | zero => rfl
    | number given reason => exact absurd h.symm (message_number_ne given reason)
  | number given reason =>
    cases e' with
    | zero => exact absurd h (message_number_ne given reason)
    | number given' reason' =>
      obtain rfl : given = value := quotes
      obtain rfl : given' = given := quotes'
      have htext : reason.text = reason'.text :=
        (String.append_right_inj ("invalid memory size '" ++ given' ++ "': ")).1 h
      rw [NumeralError.text_injective htext]

end MemorySizeError

theorem SizeReading.quotes {value : String} {numeral : List Char} {e : MemorySizeError}
    (h : SizeReading value numeral (.error e)) : e.Quotes value := by
  cases h with
  | zero => trivial
  | empty | tooLarge | invalidDigit => rfl

/-- The size that a text spells, or the message for a text that spells none. -/
def sizeAnswer (value : String) : Except String ℕ :=
  (parseMemorySize value).mapError MemorySizeError.message

theorem sizeAnswer_eq_ok_iff {value : String} {n : ℕ} :
    sizeAnswer value = .ok n ↔ SizeReading value (memorySizeNumeral value) (.ok n) := by
  rw [← parseMemorySize_eq_iff, sizeAnswer]
  cases parseMemorySize value <;> simp [Except.mapError]

theorem sizeAnswer_eq_error_iff {value : String} {e : MemorySizeError} (quotes : e.Quotes value) :
    sizeAnswer value = .error e.message ↔
      SizeReading value (memorySizeNumeral value) (.error e) := by
  rw [← parseMemorySize_eq_iff, sizeAnswer]
  constructor
  · intro h
    cases hparse : parseMemorySize value with
    | ok n =>
      rw [hparse] at h
      cases h
    | error e' =>
      rw [hparse] at h
      have reading := parseMemorySize_eq_iff.1 hparse
      rw [MemorySizeError.eq_of_message_eq reading.quotes quotes (Except.error.inj h)]
  · intro h
    rw [h]
    rfl

/-- Which texts are memory sizes, and with which message every other text is refused.  What counts is
the text without blanks at both ends and then without underscores and a sign in front. -/
theorem parseMemorySize_classification (value : String) :
    ∃ t u, t = (trim value.toList).filter (· ≠ '_') ∧ u = unsigned t ∧
      let quoted (reason : String) := "invalid memory size '" ++ value ++ "': " ++ reason
      let overflows := ∃ ds, ds <+: u ∧ AllDigits ds ∧ 2 ^ 64 ≤ decimal ds
      (∀ n, sizeAnswer value = .ok n ↔
        (u ≠ [] ∧ AllDigits u) ∧ decimal u = n ∧ 1 ≤ n ∧ n ≤ 2 ^ 64 - 1) ∧
      (sizeAnswer value = .error (quoted "cannot parse integer from empty string") ↔ t = []) ∧
      (sizeAnswer value = .error "memory size must be at least 1 cell" ↔
        (u ≠ [] ∧ AllDigits u) ∧ decimal u = 0) ∧
      (sizeAnswer value = .error (quoted "number too large to fit in target type") ↔ overflows) ∧
      (sizeAnswer value = .error (quoted "invalid digit found in string") ↔
        t ≠ [] ∧ ¬ AllDigits u ∧ ¬ overflows) := by
  let u := unsigned (memorySizeNumeral value)
  refine ⟨memorySizeNumeral value, u, rfl, rfl, ?_⟩
  intro quoted overflows
  have hover : overflows ↔ Overflows (2 ^ 64) 0 u := by
    simp only [overflows, Overflows, extend_zero]
  refine ⟨fun n => ?_, ?_, ?_, ?_, ?_⟩
  · rw [sizeAnswer_eq_ok_iff]
    constructor
    · intro h
      cases h with
      | size hne hd hpos hlt => exact ⟨⟨hne, hd⟩, rfl, hpos, Nat.le_sub_one_of_lt hlt⟩
    · rintro ⟨⟨hne, hd⟩, rfl, hpos, hle⟩
      exact .size hne hd hpos (Nat.lt_of_le_sub_one (by decide) hle)
  · refine (sizeAnswer_eq_error_iff (e := .number value .empty) rfl).trans ⟨fun h => ?_, .empty⟩
    cases h with
    | empty hnil => exact hnil
  · refine (sizeAnswer_eq_error_iff (e := .zero) trivial).trans ⟨fun h => ?_, fun h => ?_⟩
    · cases h with
      | zero hne hd hzero => exact ⟨⟨hne, hd⟩, hzero⟩
    · exact .zero h.1.1 h.1.2 h.2
  · rw [hover]
    refine (sizeAnswer_eq_error_iff (e := .number value .tooLarge) rfl).trans
      ⟨fun h => ?_, .tooLarge⟩
    cases h with
    | tooLarge large => exact large
  · rw [hover]
    refine (sizeAnswer_eq_error_iff (e := .number value .invalidDigit) rfl).trans
      ⟨fun h => ?_, fun h => ?_⟩
    · cases h with
      | invalidDigit hne hd fits => exact ⟨hne, hd, fits⟩
    · exact .invalidDigit h.1 h.2.1 h.2.2

end Brainfuck
