import Brainfuck.Proofs.Requests

/-!
# Reading characters

A stream that `Delivers` bytes gives them one by one, with any interruptions between them, and is
then at its end for ever.  A request for a character takes the encoding of the next character and
nothing else (`ByteStream.readChar_eq_char`), and has no answer where there is none
(`ByteStream.readChar_eq_invalid`).  Hence the answers to many requests are the characters of the
longest prefix of whole characters: `ByteStream.answers_longestPrefix`.
-/

namespace Brainfuck

namespace ByteStream

variable {s t : ByteStream} {bytes rest : List UInt8}

/-- The reads of a stream give the bytes one by one, with interruptions between them, and are then
at the end of the input. -/
structure Delivers (s : ByteStream) (bytes : List UInt8) : Prop where
  working : s.failure = none
  settled_eq : settled s.reads = bytes.map .byte

/-- A stream delivers what is left of its bytes. -/
theorem Delivers.of_consumes (h : s.Delivers (bytes ++ rest))
    (consumes : s.Consumes (bytes.map .byte) t) : t.Delivers rest := by
  obtain ⟨hfailure, taken, hreads, htaken, -⟩ := consumes
  refine ⟨hfailure.trans h.working, ?_⟩
  have hsettled := h.settled_eq
  rw [hreads, settled_append, htaken, List.map_append] at hsettled
  exact List.append_cancel_left hsettled

/-! ## One character -/

/-- A request takes the encoding of the next character and nothing else. -/
theorem readChar_eq_char {c : Char} (h : s.Delivers (String.utf8EncodeChar c ++ rest)) :
    ∃ t, s.readChar = (.char c, t) ∧ s.Consumes ((String.utf8EncodeChar c).map .byte) t ∧
      t.Delivers rest := by
  have hitems := h.settled_eq
  rw [List.map_append] at hitems
  obtain ⟨t, hread, consumes⟩ := readChar_of_request h.working (.char hitems)
  exact ⟨t, hread, consumes, h.of_consumes consumes⟩

theorem readChar_nil (h : s.Delivers []) : s.readChar.1 = .endOfInput := by
  rw [readChar_of_settled_nil h.working h.settled_eq]

/-- Bytes that do not begin with an encoding are no character. -/
theorem readChar_eq_invalid (h : s.Delivers bytes) (nonempty : bytes ≠ [])
    (none : ∀ c, ¬ String.utf8EncodeChar c <+: bytes) : s.readChar.1 = .invalid := by
  obtain ⟨taken, request, -⟩ := exists_request_consumes h.working
  rw [h.settled_eq] at request
  -- Among bytes there is neither an end of the input nor a failure.
  have hbyte {r : ByteRead} (hr : r ∈ bytes.map ByteRead.byte) : ∃ b, r = .byte b := by
    obtain ⟨b, -, rfl⟩ := List.mem_map.1 hr
    exact ⟨b, rfl⟩
  generalize s.readChar.1 = answer at request
  cases request with
  | stray _ _ | malformed _ _ _ | truncated _ _ _ _ => rfl
  | endOfInput ended =>
    cases bytes with
    | nil => exact absurd rfl nonempty
    | cons b bytes => cases ended
  | @failure message rest hitems =>
    obtain ⟨b, hb⟩ := hbyte (r := .failure message) (by simp [hitems])
    cases hb
  | @broken lead tail rest w message hitems _ _ =>
    obtain ⟨b, hb⟩ := hbyte (r := .failure message) (by simp [hitems])
    cases hb
  | @char c rest hitems =>
    obtain ⟨first, others, rfl, hfirst, -⟩ := List.map_eq_append_iff.1 hitems
    obtain rfl := (List.map_inj_right fun _ _ => ByteRead.byte.inj).1 hfirst
    exact absurd (List.prefix_append _ _) (none c)

/-! ## Many characters -/

/-- The answers to a number of requests for a character. -/
def answers : ℕ → ByteStream → List CharRead
  | 0, _ => []
  | n + 1, s => s.readChar.1 :: answers n s.readChar.2

/-- What comes after the longest prefix of whole characters is the end of the input or no
character. -/
theorem readChar_of_longestPrefix_nil (h : s.Delivers bytes) (longest : Utf8.LongestPrefix [] bytes) :
    s.readChar.1 = if bytes = [] then .endOfInput else .invalid := by
  split
  · next hnil => exact readChar_nil (hnil ▸ h)
  · next hne => exact readChar_eq_invalid h hne (Utf8.LongestPrefix.nil_iff.1 longest)

theorem answers_of_longestPrefix {cs : List Char} (h : s.Delivers bytes)
    (longest : Utf8.LongestPrefix cs bytes) :
    s.answers (cs.length + 1) =
      cs.map .char ++ [if Utf8.encode cs = bytes then .endOfInput else .invalid] := by
  induction cs generalizing s bytes with
  | nil =>
    have last := readChar_of_longestPrefix_nil h longest
    simp only [eq_comm (a := bytes)] at last
    exact congrArg (fun r => [r]) last
  | cons c cs ih =>
    obtain ⟨rest, rfl, hrest⟩ := longest.exists_of_cons
    obtain ⟨t, hread, -, delivers⟩ := readChar_eq_char h
    have others := ih delivers hrest
    rw [List.length_cons, answers, hread, others]
    simp only [Utf8.encode_cons, List.append_right_inj, List.map_cons, List.cons_append]

theorem consumes_after_of_longestPrefix {cs : List Char} (h : s.Delivers bytes)
    (longest : Utf8.LongestPrefix cs bytes) {i : ℕ} (le : i ≤ cs.length) :
    s.Consumes ((Utf8.encode (cs.take i)).map .byte) (s.after i) := by
  induction i generalizing s bytes cs with
  | zero => exact .refl s
  | succ i ih =>
    cases cs with
    | nil => cases le
    | cons c cs =>
      obtain ⟨rest, rfl, hrest⟩ := longest.exists_of_cons
      obtain ⟨t, hread, consumes, delivers⟩ := readChar_eq_char h
      have others := ih delivers hrest (Nat.le_of_succ_le_succ le)
      rw [after, hread, List.take_succ_cons, Utf8.encode_cons, List.map_append]
      exact consumes.trans others

/-- The answers to requests for characters are those of the longest prefix of whole characters, each
of which takes its own encoding.  The next answer is the end of the input if nothing is left, and no
character otherwise. -/
theorem answers_longestPrefix (h : s.Delivers bytes) :
    (∃! cs, Utf8.LongestPrefix cs bytes) ∧
    (∀ cs, Utf8.LongestPrefix cs bytes →
      s.answers (cs.length + 1) =
        cs.map .char ++ [if Utf8.encode cs = bytes then .endOfInput else .invalid] ∧
      ∀ i ≤ cs.length, s.Consumes ((Utf8.encode (cs.take i)).map .byte) (s.after i)) ∧
    (∀ text : String, bytes = text.toUTF8.data.toList →
      s.answers (text.length + 1) = text.toList.map .char ++ [.endOfInput]) := by
  refine ⟨Utf8.existsUnique_longestPrefix bytes, fun cs longest => ?_, ?_⟩
  · exact ⟨answers_of_longestPrefix h longest,
      fun i le => consumes_after_of_longestPrefix h longest le⟩
  · rintro text rfl
    rw [Utf8.toList_toUTF8] at h
    have all := answers_of_longestPrefix h (.encode_self text.toList)
    rw [if_pos rfl] at all
    exact all

/-- An encoded surrogate comes after `é`, with interruptions in the middle of both. -/
theorem answers_before_surrogate :
    ∃ s : ByteStream, s.Delivers [0xC3, 0xA9, 0xED, 0xA0, 0x80] ∧
      s.answers 2 = [.char 'é', .invalid] ∧ s.Consumes [.byte 0xC3, .byte 0xA9] (s.after 1) := by
  have delivers : Delivers ⟨[.interrupted, .byte 0xC3, .interrupted, .byte 0xA9, .byte 0xED,
      .byte 0xA0, .interrupted, .byte 0x80], none⟩ [0xC3, 0xA9, 0xED, 0xA0, 0x80] :=
    ⟨rfl, by decide⟩
  have longest : Utf8.LongestPrefix ['é'] [0xC3, 0xA9, 0xED, 0xA0, 0x80] :=
    Utf8.LongestPrefix.cons_iff.2 (.nil_of_decode? (n := 2) rfl (by decide))
  obtain ⟨answers, consumes⟩ := (answers_longestPrefix delivers).2.1 ['é'] longest
  exact ⟨_, delivers, answers, consumes 1 le_rfl⟩

end ByteStream

end Brainfuck
