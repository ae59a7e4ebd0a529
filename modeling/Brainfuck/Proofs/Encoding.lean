import Brainfuck.Proofs.TapeBounds
import Brainfuck.Utf8
import Mathlib.Data.List.Infix
import Mathlib.Data.Nat.Notation
import Mathlib.Logic.ExistsUnique

/-!
# Encoded characters

`Utf8.decode?` takes exactly the encoding of a character for this character
(`decode?_eq_some_iff`), and the first byte of an encoding announces the others
(`exists_utf8EncodeChar_eq_cons`).  No encoding begins another one (`utf8EncodeChar_append_inj`),
hence every sequence of bytes has exactly one longest prefix of whole characters
(`LongestPrefix`, `existsUnique_longestPrefix`).
-/

namespace Brainfuck.Utf8

/-! ## One character -/

theorem tailBits?_eq_some_iff {b : UInt8} {y : ℕ} :
    tailBits? b = some y ↔ b.toNat = 0x80 + y ∧ y < 0x40 := by
  unfold tailBits?
  simp only [UInt8.le_iff_toNat_le, Option.ite_none_right_eq_some, Option.some.injEq,
    UInt8.reduceToNat]
  omega

theorem ofNat_eq_iff {value : ℕ} (h : value.isValidChar) (c : Char) :
    Char.ofNat value = c ↔ c.toNat = value := by
  have hvalue : (Char.ofNat value).toNat = value := by
    rw [Char.ofNat, dif_pos h]
    rfl
  constructor
  · rintro rfl
    exact hvalue
  · rintro rfl
    exact Char.ofNat_toNat c

theorem scalar?_eq_some_iff {least value : ℕ} {c : Char} :
    scalar? least value = some c ↔ least ≤ value ∧ c.toNat = value := by
  unfold scalar?
  rw [Option.ite_none_right_eq_some, Option.some.injEq]
  constructor
  · rintro ⟨⟨hle, hvalid⟩, hc⟩
    exact ⟨hle, (ofNat_eq_iff hvalid c).1 hc⟩
  · rintro ⟨hle, rfl⟩
    exact ⟨⟨hle, c.valid⟩, Char.ofNat_toNat c⟩

/-- The bytes that encode the character with a value, as numbers. -/
def octets (value : ℕ) : List ℕ :=
  if value < 0x80 then [value]
  else if value < 0x800 then [0xC0 + value / 64, 0x80 + value % 64]
  else if value < 0x10000 then [0xE0 + value / 4096, 0x80 + value / 64 % 64, 0x80 + value % 64]
  else [0xF0 + value / 262144, 0x80 + value / 4096 % 64, 0x80 + value / 64 % 64,
    0x80 + value % 64]

theorem map_toNat_utf8EncodeChar (c : Char) :
    (String.utf8EncodeChar c).map UInt8.toNat = octets c.toNat := by
  have hc := toNat_le_cellMax c
  unfold cellMax at hc
  unfold String.utf8EncodeChar octets
  rw [Char.toNat] at hc ⊢
  generalize c.val.toNat = value at hc
  dsimp only
  split_ifs <;> simp [UInt8.toNat_ofNat'] <;> omega

theorem eq_utf8EncodeChar_iff {bytes : List UInt8} {c : Char} :
    bytes = String.utf8EncodeChar c ↔ bytes.map UInt8.toNat = octets c.toNat := by
  rw [← map_toNat_utf8EncodeChar]
  exact (List.map_injective_iff.2 fun _ _ => UInt8.toNat_inj.1).eq_iff.symm

section Bytes

variable {a b d e : UInt8} {c : Char}

theorem decode?_one : decode? [a] = some c ↔ [a.toNat] = octets c.toNat := by
  simp only [decode?, Option.ite_none_right_eq_some, Option.some.injEq, UInt8.le_iff_toNat_le,
    UInt8.reduceToNat]
  unfold octets
  constructor
  · rintro ⟨hlead, hc⟩
    have hvalue := (ofNat_eq_iff (.inl (by omega)) c).1 hc
    rw [if_pos (by omega), hvalue]
  · intro h
    split_ifs at h <;> simp at h
    refine ⟨by omega, ?_⟩
    rw [h, Char.ofNat_toNat]

theorem decode?_two : decode? [a, b] = some c ↔ [a.toNat, b.toNat] = octets c.toNat := by
  simp only [decode?, Option.bind_eq_bind, Option.bind_eq_some_iff, tailBits?_eq_some_iff,
    Option.ite_none_right_eq_some, scalar?_eq_some_iff, UInt8.le_iff_toNat_le, UInt8.reduceToNat]
  unfold octets
  constructor
  · rintro ⟨y, hy, hlead, hleast, hvalue⟩
    split_ifs <;> simp <;> omega
  · intro h
    split_ifs at h <;> simp at h
    refine ⟨c.toNat % 64, ?_⟩
    omega

theorem decode?_three :
    decode? [a, b, d] = some c ↔ [a.toNat, b.toNat, d.toNat] = octets c.toNat := by
  simp only [decode?, Option.bind_eq_bind, Option.bind_eq_some_iff, tailBits?_eq_some_iff,
    Option.ite_none_right_eq_some, scalar?_eq_some_iff, UInt8.le_iff_toNat_le, UInt8.reduceToNat]
  unfold octets
  constructor
  · rintro ⟨y, hy, z, hz, hlead, hleast, hvalue⟩
    split_ifs <;> simp <;> omega
  · intro h
    split_ifs at h <;> simp at h
    refine ⟨c.toNat / 64 % 64, ?_, c.toNat % 64, ?_⟩ <;> omega

theorem decode?_four :
    decode? [a, b, d, e] = some c ↔ [a.toNat, b.toNat, d.toNat, e.toNat] = octets c.toNat := by
  have hc := toNat_le_cellMax c
  unfold cellMax at hc
  simp only [decode?, Option.bind_eq_bind, Option.bind_eq_some_iff, tailBits?_eq_some_iff,
    Option.ite_none_right_eq_some, scalar?_eq_some_iff, UInt8.le_iff_toNat_le, UInt8.reduceToNat]
  unfold octets
  constructor
  · rintro ⟨y, hy, z, hz, w, hw, hlead, hleast, hvalue⟩
    split_ifs <;> simp <;> omega
  · intro h
    split_ifs at h <;> simp at h
    refine ⟨c.toNat / 4096 % 64, ?_, c.toNat / 64 % 64, ?_, c.toNat % 64, ?_⟩ <;> omega

end Bytes

/-- Bytes are decoded as a character if and only if they are its encoding. -/
theorem decode?_eq_some_iff {bytes : List UInt8} {c : Char} :
    decode? bytes = some c ↔ bytes = String.utf8EncodeChar c := by
  rw [eq_utf8EncodeChar_iff]
  match bytes with
  | [a] => exact decode?_one
  | [a, b] => exact decode?_two
  | [a, b, d] => exact decode?_three
  | [a, b, d, e] => exact decode?_four
  | [] | _ :: _ :: _ :: _ :: _ :: _ =>
    refine ⟨nofun, fun h => ?_⟩
    unfold octets at h
    split_ifs at h <;> simp at h

/-- The first byte of an encoding announces the others. -/
theorem exists_utf8EncodeChar_eq_cons (c : Char) :
    ∃ lead tail, String.utf8EncodeChar c = lead :: tail ∧
      tailLength? lead = some tail.length := by
  have hc := toNat_le_cellMax c
  unfold cellMax at hc
  have hnumbers := map_toNat_utf8EncodeChar c
  cases hbytes : String.utf8EncodeChar c with
  | nil =>
    rw [hbytes] at hnumbers
    unfold octets at hnumbers
    split_ifs at hnumbers <;> simp at hnumbers
  | cons lead tail =>
    refine ⟨lead, tail, rfl, ?_⟩
    have hlength := congrArg List.length hnumbers
    rw [hbytes] at hnumbers hlength
    simp only [tailLength?, UInt8.le_iff_toNat_le, UInt8.reduceToNat]
    unfold octets at hnumbers hlength
    split_ifs at hnumbers hlength <;> simp at hnumbers hlength <;> grind

/-- Bytes begin with an encoding if and only if their first byte announces as many as it takes. -/
theorem utf8EncodeChar_prefix_cons_iff {c : Char} {lead : UInt8} {bytes : List UInt8} :
    String.utf8EncodeChar c <+: lead :: bytes ↔
      ∃ n, tailLength? lead = some n ∧ decode? (lead :: bytes.take n) = some c := by
  obtain ⟨lead', tail, hbytes, hlength⟩ := exists_utf8EncodeChar_eq_cons c
  constructor
  · intro h
    rw [hbytes, List.cons_prefix_cons] at h
    obtain ⟨rfl, htail⟩ := h
    refine ⟨tail.length, hlength, ?_⟩
    rw [decode?_eq_some_iff, hbytes, ← List.prefix_iff_eq_take.1 htail]
  · rintro ⟨n, -, hdecode⟩
    rw [← decode?_eq_some_iff.1 hdecode, List.cons_prefix_cons]
    exact ⟨rfl, List.take_prefix n bytes⟩

/-! ## Texts -/

/-- No encoding begins another one. -/
theorem utf8EncodeChar_append_inj {c c' : Char} {bytes bytes' : List UInt8}
    (h : String.utf8EncodeChar c ++ bytes = String.utf8EncodeChar c' ++ bytes') :
    c = c' ∧ bytes = bytes' := by
  -- The library's decoder gives the first character, and it has been proved to undo the encoding.
  have hc := ByteArray.utf8DecodeChar?_utf8EncodeChar_append (b := bytes.toByteArray) (c := c)
  rw [← List.toByteArray_append, h, List.toByteArray_append,
    ByteArray.utf8DecodeChar?_utf8EncodeChar_append] at hc
  obtain rfl : c' = c := Option.some.inj hc
  exact ⟨rfl, List.append_cancel_left h⟩

/-- The encoding of a sequence of characters. -/
def encode (cs : List Char) : List UInt8 := cs.flatMap String.utf8EncodeChar

@[simp] theorem encode_nil : encode [] = [] := rfl

@[simp] theorem encode_cons (c : Char) (cs : List Char) :
    encode (c :: cs) = String.utf8EncodeChar c ++ encode cs := rfl

theorem toList_toUTF8 (text : String) : text.toUTF8.data.toList = encode text.toList := by
  rw [String.toUTF8, ← String.utf8Encode_toList, List.utf8Encode, List.toList_data_toByteArray,
    encode]

theorem fromUTF8?_eq_some_iff {bytes : ByteArray} {text : String} :
    String.fromUTF8? bytes = some text ↔ bytes = text.toUTF8 := by
  unfold String.fromUTF8?
  constructor
  · intro h
    split at h <;> cases h
    rfl
  · rintro rfl
    exact dif_pos text.isValidUTF8

/-- The encodings of the characters `cs` make up the longest prefix of `bytes` that consists of whole
characters. -/
structure LongestPrefix (cs : List Char) (bytes : List UInt8) : Prop where
  encode_prefix : encode cs <+: bytes
  longest : ∀ cs', encode cs' <+: bytes → (encode cs').length ≤ (encode cs).length

namespace LongestPrefix

theorem encode_self (cs : List Char) : LongestPrefix cs (encode cs) :=
  ⟨List.prefix_rfl, fun _ h => h.length_le⟩

theorem nil_iff {bytes : List UInt8} :
    LongestPrefix [] bytes ↔ ∀ c, ¬ String.utf8EncodeChar c <+: bytes := by
  constructor
  · intro h c hc
    have hle := h.longest [c] (by simpa using hc)
    have hpos := c.utf8Size_pos
    simp at hle
    omega
  · intro h
    refine ⟨List.nil_prefix, fun cs hcs => ?_⟩
    cases cs with
    | nil => exact le_rfl
    | cons c cs => exact absurd ((List.prefix_append _ _).trans hcs) (h c)

theorem nil_of_decode? {lead : UInt8} {bytes : List UInt8} {n : ℕ}
    (hlength : tailLength? lead = some n) (hdecode : decode? (lead :: bytes.take n) = none) :
    LongestPrefix [] (lead :: bytes) := by
  refine nil_iff.2 fun c hc => ?_
  obtain ⟨n', hlength', hsome⟩ := utf8EncodeChar_prefix_cons_iff.1 hc
  obtain rfl : n = n' := Option.some.inj (hlength.symm.trans hlength')
  exact absurd (hdecode.symm.trans hsome) nofun

theorem cons_iff {c : Char} {cs : List Char} {bytes : List UInt8} :
    LongestPrefix (c :: cs) (String.utf8EncodeChar c ++ bytes) ↔ LongestPrefix cs bytes := by
  constructor
  · intro h
    refine ⟨(List.prefix_append_right_inj _).1 h.encode_prefix, fun cs' hcs' => ?_⟩
    have hle := h.longest (c :: cs') ((List.prefix_append_right_inj _).2 hcs')
    simp only [encode_cons, List.length_append] at hle
    omega
  · intro h
    refine ⟨(List.prefix_append_right_inj _).2 h.encode_prefix, fun cs' hcs' => ?_⟩
    cases cs' with
    | nil => exact Nat.zero_le _
    | cons c' cs' =>
      obtain ⟨after, hafter⟩ := hcs'
      rw [encode_cons, List.append_assoc] at hafter
      obtain ⟨rfl, hrest⟩ := utf8EncodeChar_append_inj hafter
      have hle := h.longest cs' ⟨after, hrest⟩
      simp only [encode_cons, List.length_append]
      omega

theorem exists_of_cons {c : Char} {cs : List Char} {bytes : List UInt8}
    (h : LongestPrefix (c :: cs) bytes) :
    ∃ rest, bytes = String.utf8EncodeChar c ++ rest ∧ LongestPrefix cs rest := by
  obtain ⟨after, rfl⟩ := h.encode_prefix
  rw [encode_cons, List.append_assoc] at h ⊢
  exact ⟨_, rfl, cons_iff.1 h⟩

theorem unique {cs cs' : List Char} {bytes : List UInt8} (h : LongestPrefix cs bytes)
    (h' : LongestPrefix cs' bytes) : cs = cs' := by
  induction cs generalizing cs' bytes with
  | nil =>
    cases cs' with
    | nil => rfl
    | cons c' cs' =>
      obtain ⟨rest, rfl, -⟩ := h'.exists_of_cons
      exact absurd (List.prefix_append _ _) (nil_iff.1 h c')
  | cons c cs ih =>
    obtain ⟨rest, rfl, hrest⟩ := h.exists_of_cons
    cases cs' with
    | nil => exact absurd (List.prefix_append _ _) (nil_iff.1 h' c)
    | cons c' cs' =>
      obtain ⟨rest', heq, hrest'⟩ := h'.exists_of_cons
      obtain ⟨rfl, rfl⟩ := utf8EncodeChar_append_inj heq
      rw [ih hrest hrest']

end LongestPrefix

theorem exists_longestPrefix (bytes : List UInt8) : ∃ cs, LongestPrefix cs bytes := by
  induction hn : bytes.length using Nat.strong_induction_on generalizing bytes with
  | _ n ih =>
    by_cases h : ∃ c, String.utf8EncodeChar c <+: bytes
    · obtain ⟨c, rest, rfl⟩ := h
      have hpos := c.utf8Size_pos
      rw [List.length_append, String.length_utf8EncodeChar] at hn
      obtain ⟨cs, hcs⟩ := ih rest.length (by omega) rest rfl
      exact ⟨c :: cs, LongestPrefix.cons_iff.2 hcs⟩
    · exact ⟨[], LongestPrefix.nil_iff.2 fun c hc => h ⟨c, hc⟩⟩

theorem existsUnique_longestPrefix (bytes : List UInt8) : ∃! cs, LongestPrefix cs bytes := by
  obtain ⟨cs, hcs⟩ := exists_longestPrefix bytes
  exact ⟨cs, hcs, fun cs' hcs' => hcs'.unique hcs⟩

end Brainfuck.Utf8
