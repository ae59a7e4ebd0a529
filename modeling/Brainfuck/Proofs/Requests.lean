import Brainfuck.Input
import Brainfuck.Proofs.Encoding

/-!
# One request for a character

A stream may give anything: bytes, interruptions, ends of the input and failures in any order.  What
a request makes of the reads that are no interruptions is `Request`: the answer, and the reads that
it takes.  `ByteStream.readChar_of_request` says that requests go that way, and
`ByteStream.readChar_classification` which scripts have which answer, how much a request takes and
when a script is used up.
-/

namespace Brainfuck

/-! ## Bytes that announce others -/

namespace Utf8

/-- The byte `lead` is the first of an encoding of `w` bytes. -/
def Announces (lead : UInt8) (w : ℕ) : Prop :=
  ∃ c tail, String.utf8EncodeChar c = lead :: tail ∧ tail.length + 1 = w

/-- The first byte that announces something begins an encoding: that of the least character with
this first byte. -/
theorem exists_octets_of_tailLength? {lead : UInt8} {n : ℕ} (h : tailLength? lead = some n) :
    ∃ value, value.isValidChar ∧ (octets value).head? = some lead.toNat := by
  have hlead := lead.toNat_lt
  simp only [tailLength?, UInt8.le_iff_toNat_le, UInt8.reduceToNat] at h
  unfold Nat.isValidChar octets
  split_ifs at h with one two three four
  · exact ⟨lead.toNat, by omega, by rw [if_pos (by omega)]; rfl⟩
  · refine ⟨(lead.toNat - 0xC0) * 64, by omega, ?_⟩
    rw [if_neg (by omega), if_pos (by omega), List.head?_cons, Option.some.injEq]
    omega
  · refine ⟨max 0x800 ((lead.toNat - 0xE0) * 4096), by omega, ?_⟩
    rw [if_neg (by omega), if_neg (by omega), if_pos (by omega), List.head?_cons, Option.some.injEq]
    omega
  · refine ⟨max 0x10000 ((lead.toNat - 0xF0) * 262144), by omega, ?_⟩
    rw [if_neg (by omega), if_neg (by omega), if_neg (by omega), List.head?_cons, Option.some.injEq]
    omega

theorem announces_iff {lead : UInt8} {w : ℕ} :
    Announces lead w ↔ ∃ n, tailLength? lead = some n ∧ n + 1 = w := by
  constructor
  · rintro ⟨c, tail, hc, hw⟩
    obtain ⟨lead', tail', hc', hlength⟩ := exists_utf8EncodeChar_eq_cons c
    obtain ⟨rfl, rfl⟩ := List.cons.inj (hc.symm.trans hc')
    exact ⟨tail.length, hlength, hw⟩
  · rintro ⟨n, hn, rfl⟩
    obtain ⟨value, hvalid, hhead⟩ := exists_octets_of_tailLength? hn
    obtain ⟨lead', tail, hc, hlength⟩ := exists_utf8EncodeChar_eq_cons (Char.ofNat value)
    have hoctets := map_toNat_utf8EncodeChar (Char.ofNat value)
    rw [(ofNat_eq_iff hvalid _).1 rfl, hc, List.map_cons] at hoctets
    rw [← hoctets, List.head?_cons, Option.some.injEq, UInt8.toNat_inj] at hhead
    subst hhead
    obtain rfl : n = tail.length := Option.some.inj (hn.symm.trans hlength)
    exact ⟨_, tail, hc, rfl⟩

theorem Announces.le_four {lead : UInt8} {w : ℕ} (h : Announces lead w) : w ≤ 4 := by
  obtain ⟨c, tail, hc, rfl⟩ := h
  have hlength := congrArg List.length hc
  rw [String.length_utf8EncodeChar, List.length_cons] at hlength
  exact hlength ▸ c.utf8Size_le_four

end Utf8

/-! ## The reads of a script -/

/-- The reads of a script that are no interruptions. -/
def settled (reads : List ByteRead) : List ByteRead := reads.filter (· ≠ .interrupted)

theorem settled_append (reads reads' : List ByteRead) :
    settled (reads ++ reads') = settled reads ++ settled reads' :=
  List.filter_append ..

theorem settled_cons {r : ByteRead} (h : r ≠ .interrupted) (reads : List ByteRead) :
    settled (r :: reads) = r :: settled reads :=
  List.filter_cons_of_pos (by simpa using h)

@[simp] theorem settled_interruptions (k : ℕ) : settled (List.replicate k .interrupted) = [] := by
  simp [settled]

theorem interrupted_notMem_settled (reads : List ByteRead) : .interrupted ∉ settled reads := by
  simp [settled]

/-- A script has interruptions only, or some in front of its first other read. -/
theorem exists_interruptions (reads : List ByteRead) :
    (∃ k, reads = List.replicate k .interrupted) ∨
      ∃ k r rest, r ≠ .interrupted ∧ reads = List.replicate k .interrupted ++ r :: rest := by
  induction reads with
  | nil => exact .inl ⟨0, rfl⟩
  | cons x reads ih =>
    by_cases hx : x = .interrupted
    · subst hx
      rcases ih with ⟨k, rfl⟩ | ⟨k, r, rest, hr, rfl⟩
      · exact .inl ⟨k + 1, rfl⟩
      · exact .inr ⟨k + 1, r, rest, hr, rfl⟩
    · exact .inr ⟨0, x, reads, hx, rfl⟩

namespace ByteRead

/-- What a read that is no interruption gives. -/
def answer : ByteRead → Except String (Option UInt8)
  | byte b => .ok (some b)
  | failure message => .error message
  | interrupted | endOfInput => .ok none

/-- What becomes of a character that has begun when a read gives no byte. -/
def refusal? : ByteRead → Option CharRead
  | endOfInput => some .invalid
  | failure message => some (.failure message)
  | byte _ | interrupted => none

end ByteRead

/-- What the first of some reads gives; behind the last of a script is the end of the input. -/
def upcoming (items : List ByteRead) : ByteRead := items.headD .endOfInput

/-! ## What a request makes of a script -/

/-- A request for a character has an answer and takes some reads, when the reads that come are
`items` and no interruptions are among them. -/
inductive Request (items : List ByteRead) : CharRead → (taken : List ByteRead) → Prop where
  /-- The input is at its end, for once or for ever. -/
  | endOfInput : upcoming items = .endOfInput → Request items .endOfInput (items.take 1)
  | failure {message : String} {rest : List ByteRead} : items = .failure message :: rest →
      Request items (.failure message) [.failure message]
  /-- The first byte begins nothing. -/
  | stray {b : UInt8} {rest : List ByteRead} : items = .byte b :: rest →
      (∀ w, ¬ Utf8.Announces b w) → Request items .invalid [.byte b]
  | char {c : Char} {rest : List ByteRead} :
      items = (String.utf8EncodeChar c).map .byte ++ rest →
      Request items (.char c) ((String.utf8EncodeChar c).map .byte)
  /-- All bytes that are announced are there, and they encode nothing. -/
  | malformed {lead : UInt8} {tail : List UInt8} {rest : List ByteRead} :
      items = (lead :: tail).map .byte ++ rest → Utf8.Announces lead (tail.length + 1) →
      (∀ c, String.utf8EncodeChar c ≠ lead :: tail) →
      Request items .invalid ((lead :: tail).map .byte)
  /-- The input ends before all bytes that are announced. -/
  | truncated {lead : UInt8} {tail : List UInt8} {rest : List ByteRead} {w : ℕ} :
      items = (lead :: tail).map .byte ++ rest → Utf8.Announces lead w → tail.length + 1 < w →
      upcoming rest = .endOfInput →
      Request items .invalid ((lead :: tail).map .byte ++ rest.take 1)
  /-- A read fails before all bytes that are announced. -/
  | broken {lead : UInt8} {tail : List UInt8} {rest : List ByteRead} {w : ℕ} {message : String} :
      items = (lead :: tail).map .byte ++ .failure message :: rest → Utf8.Announces lead w →
      tail.length + 1 < w →
      Request items (.failure message) ((lead :: tail).map .byte ++ [.failure message])

/-- Some bytes come, as many as are wanted or fewer in front of a read that gives none. -/
theorem exists_bytes {items : List ByteRead} (quiet : .interrupted ∉ items) (n : ℕ) :
    ∃ (bytes : List UInt8) (rest : List ByteRead), items = bytes.map .byte ++ rest ∧
      (bytes.length = n ∨ bytes.length < n ∧ (upcoming rest = .endOfInput ∨
        ∃ message rest', rest = .failure message :: rest')) := by
  induction n generalizing items with
  | zero => exact ⟨[], items, rfl, .inl rfl⟩
  | succ n ih =>
    match items with
    | [] => exact ⟨[], [], rfl, .inr ⟨Nat.succ_pos n, .inl rfl⟩⟩
    | .endOfInput :: rest => exact ⟨[], _, rfl, .inr ⟨Nat.succ_pos n, .inl rfl⟩⟩
    | .failure message :: rest => exact ⟨[], _, rfl, .inr ⟨Nat.succ_pos n, .inr ⟨_, _, rfl⟩⟩⟩
    | .interrupted :: rest => exact absurd List.mem_cons_self quiet
    | .byte b :: items =>
      obtain ⟨bytes, rest, rfl, h⟩ := ih (fun hmem => quiet (List.mem_cons_of_mem _ hmem))
      refine ⟨b :: bytes, rest, rfl, ?_⟩
      rw [List.length_cons, Nat.add_right_cancel_iff, Nat.add_lt_add_iff_right]
      exact h

/-- A request has an answer whatever comes. -/
theorem exists_request {items : List ByteRead} (quiet : .interrupted ∉ items) :
    ∃ answer taken, Request items answer taken := by
  match items with
  | [] => exact ⟨_, _, .endOfInput rfl⟩
  | .endOfInput :: rest => exact ⟨_, _, .endOfInput rfl⟩
  | .failure message :: rest => exact ⟨_, _, .failure rfl⟩
  | .interrupted :: rest => exact absurd List.mem_cons_self quiet
  | .byte lead :: items =>
    by_cases stray : ∀ w, ¬ Utf8.Announces lead w
    · exact ⟨_, _, .stray rfl stray⟩
    simp only [not_forall, not_not] at stray
    obtain ⟨w, announces⟩ := stray
    obtain ⟨n, -, rfl⟩ := Utf8.announces_iff.1 announces
    obtain ⟨tail, rest, rfl, rfl | ⟨short, ended | ⟨message, rest', rfl⟩⟩⟩ :=
      exists_bytes (fun hmem => quiet (List.mem_cons_of_mem _ hmem)) n
    · by_cases decodes : ∃ c, String.utf8EncodeChar c = lead :: tail
      · obtain ⟨c, hc⟩ := decodes
        exact ⟨_, _, .char (c := c) (by rw [hc]; rfl)⟩
      · exact ⟨_, _, .malformed rfl announces (fun c hc => decodes ⟨c, hc⟩)⟩
    · exact ⟨_, _, .truncated rfl announces (Nat.succ_lt_succ short) ended⟩
    · exact ⟨_, _, .broken rfl announces (Nat.succ_lt_succ short)⟩

namespace Request

variable {items taken : List ByteRead} {answer : CharRead}

theorem length_le_four (h : Request items answer taken) : taken.length ≤ 4 := by
  cases h with
  | endOfInput _ =>
    rw [List.length_take]
    omega
  | failure _ | stray _ _ => simp
  | @char c _ _ =>
    rw [List.length_map, String.length_utf8EncodeChar]
    exact c.utf8Size_le_four
  | malformed _ announces _ =>
    rw [List.length_map]
    exact announces.le_four
  | truncated _ announces short _ =>
    have := announces.le_four
    simp only [List.length_append, List.length_map, List.length_cons, List.length_take]
    omega
  | broken _ announces short =>
    have := announces.le_four
    simp only [List.length_append, List.length_map, List.length_cons, List.length_nil]
    omega

theorem taken_ne_nil (h : Request items answer taken) (hne : items ≠ []) : taken ≠ [] := by
  cases h with
  | endOfInput _ => simpa using hne
  | failure _ | stray _ _ | malformed _ _ _ | truncated _ _ _ _ | broken _ _ _ => simp
  | @char c _ _ =>
    have := c.utf8Size_pos
    rw [← List.length_pos_iff, List.length_map, String.length_utf8EncodeChar]
    omega

end Request

/-! ## Requests to a stream -/

namespace ByteStream

variable {s t u : ByteStream} {items items' : List ByteRead}

/-- The stream `t` is left of `s` when the reads `items` are taken, with the interruptions in front of
each of them.  Only at the end of the script are there interruptions behind the last. -/
structure Consumes (s : ByteStream) (items : List ByteRead) (t : ByteStream) : Prop where
  failure_eq : t.failure = s.failure
  exists_taken : ∃ taken, s.reads = taken ++ t.reads ∧ settled taken = items ∧
    (taken.getLast? = some .interrupted → t.reads = [])

theorem Consumes.refl (s : ByteStream) : s.Consumes [] s := ⟨rfl, [], rfl, rfl, nofun⟩

theorem Consumes.trans (h : s.Consumes items t) (h' : t.Consumes items' u) :
    s.Consumes (items ++ items') u := by
  obtain ⟨hfailure, taken, hreads, rfl, hlast⟩ := h
  obtain ⟨hfailure', taken', hreads', rfl, hlast'⟩ := h'
  refine ⟨hfailure'.trans hfailure, taken ++ taken', ?_, settled_append taken taken', ?_⟩
  · rw [hreads, hreads', List.append_assoc]
  · rw [List.getLast?_append]
    intro hend
    cases hcase : taken'.getLast? with
    | none =>
      rw [hcase, Option.none_or] at hend
      rw [List.getLast?_eq_none_iff.1 hcase, hlast hend] at hreads'
      exact (List.append_eq_nil_iff.1 hreads'.symm).2
    | some r =>
      rw [hcase, Option.some_or] at hend
      exact hlast' (hcase.trans hend)

theorem nextByte_interruptions (failure : Option String) (k : ℕ) (reads : List ByteRead) :
    nextByte failure (List.replicate k .interrupted ++ reads) = nextByte failure reads := by
  induction k with
  | zero => rfl
  | succ k ih => exact ih

theorem nextByte_cons {r : ByteRead} (h : r ≠ .interrupted) (failure : Option String)
    (rest : List ByteRead) : nextByte failure (r :: rest) = (r.answer, rest) := by
  cases r with
  | interrupted => exact absurd rfl h
  | byte b | endOfInput | failure message => rfl

/-- A read of a script with interruptions only takes them all. -/
theorem readByte_of_settled_nil (working : s.failure = none) (h : settled s.reads = []) :
    s.readByte = (.ok none, ⟨[], none⟩) := by
  obtain ⟨reads, failure⟩ := s
  obtain rfl : failure = none := working
  rcases exists_interruptions reads with ⟨k, rfl⟩ | ⟨k, r, rest, hr, rfl⟩
  · have hnext := nextByte_interruptions none k []
    rw [List.append_nil] at hnext
    rw [readByte, hnext]
    rfl
  · rw [settled_append, settled_interruptions, settled_cons hr] at h
    cases h

/-- A read takes the next item that is no interruption, if there is one. -/
theorem readByte_eq (working : s.failure = none) :
    ∃ t, s.readByte = ((upcoming (settled s.reads)).answer, t) ∧
      s.Consumes ((settled s.reads).take 1) t ∧ settled t.reads = (settled s.reads).tail := by
  obtain ⟨reads, failure⟩ := s
  obtain rfl : failure = none := working
  rcases exists_interruptions reads with ⟨k, rfl⟩ | ⟨k, r, rest, hr, rfl⟩
  · have used_up := settled_interruptions k
    refine ⟨⟨[], none⟩, ?_, ⟨rfl, _, (List.append_nil _).symm, ?_, fun _ => rfl⟩, ?_⟩
    · rw [readByte_of_settled_nil rfl used_up, used_up]
      rfl
    · rw [used_up, List.take_nil]
    · rw [used_up]
      rfl
  · have hsettled : settled (List.replicate k .interrupted ++ r :: rest) = r :: settled rest := by
      rw [settled_append, settled_interruptions, settled_cons hr, List.nil_append]
    refine ⟨⟨rest, none⟩, ?_, ⟨rfl, List.replicate k .interrupted ++ [r], ?_, ?_, ?_⟩, ?_⟩
    · rw [readByte, nextByte_interruptions, nextByte_cons hr, hsettled]
      rfl
    · exact List.append_cons _ r rest
    · rw [hsettled, settled_append, settled_interruptions, settled_cons hr]
      rfl
    · rw [List.getLast?_concat]
      exact fun h => absurd (Option.some.inj h) hr
    · rw [hsettled]
      rfl

theorem readByte_of_byte {b : UInt8} (working : s.failure = none)
    (h : settled s.reads = .byte b :: items) :
    ∃ t, s.readByte = (.ok (some b), t) ∧ s.Consumes [.byte b] t ∧ t.failure = none ∧
      settled t.reads = items := by
  obtain ⟨t, hread, consumes, hrest⟩ := readByte_eq working
  rw [h] at hread consumes hrest
  exact ⟨t, hread, consumes, consumes.failure_eq.trans working, hrest⟩

/-- All bytes that are wanted are there. -/
theorem readTail_of_bytes {bytes : List UInt8} {rest : List ByteRead} (working : s.failure = none)
    (h : settled s.reads = bytes.map .byte ++ rest) :
    ∃ t, readTail bytes.length s = (.ok bytes, t) ∧ s.Consumes (bytes.map .byte) t := by
  induction bytes generalizing s with
  | nil => exact ⟨s, rfl, .refl s⟩
  | cons b bytes ih =>
    obtain ⟨t, hread, hfirst, hworking, hrest⟩ := readByte_of_byte working h
    obtain ⟨u, htail, hothers⟩ := ih hworking hrest
    refine ⟨u, ?_, hfirst.trans hothers⟩
    simp only [List.length_cons, readTail, hread, htail]

/-- A read gives no byte before all that are wanted are there. -/
theorem readTail_of_refusal {bytes : List UInt8} {rest : List ByteRead} {n : ℕ} {r : CharRead}
    (working : s.failure = none) (h : settled s.reads = bytes.map .byte ++ rest)
    (short : bytes.length < n) (refused : (upcoming rest).refusal? = some r) :
    ∃ t, readTail n s = (.error r, t) ∧ s.Consumes (bytes.map .byte ++ rest.take 1) t := by
  induction bytes generalizing s n with
  | nil =>
    obtain ⟨n, rfl⟩ := Nat.exists_eq_add_one_of_ne_zero (Nat.ne_zero_of_lt short)
    obtain ⟨t, hread, hfirst, -⟩ := readByte_eq working
    rw [h, List.map_nil, List.nil_append] at hread hfirst
    refine ⟨t, ?_, hfirst⟩
    cases hnext : upcoming rest with
    | byte b | interrupted => rw [hnext] at refused; cases refused
    | endOfInput | failure message =>
      rw [hnext] at refused hread
      cases refused
      simp only [readTail, hread]
      rfl
  | cons b bytes ih =>
    obtain ⟨n, rfl⟩ := Nat.exists_eq_add_one_of_ne_zero (Nat.ne_zero_of_lt short)
    obtain ⟨t, hread, hfirst, hworking, hrest⟩ := readByte_of_byte working h
    obtain ⟨u, htail, hothers⟩ := ih hworking hrest (Nat.lt_of_succ_lt_succ short)
    refine ⟨u, ?_, hfirst.trans hothers⟩
    simp only [readTail, hread, htail]

/-- Where the announced bytes do not all come, the first read that gives none decides. -/
theorem readChar_of_refusal {lead : UInt8} {tail : List UInt8} {rest : List ByteRead} {w : ℕ}
    {r : CharRead} (working : s.failure = none)
    (h : settled s.reads = (lead :: tail).map .byte ++ rest) (announces : Utf8.Announces lead w)
    (short : tail.length + 1 < w) (refused : (upcoming rest).refusal? = some r) :
    ∃ t, s.readChar = (r, t) ∧ s.Consumes ((lead :: tail).map .byte ++ rest.take 1) t := by
  obtain ⟨n, hlength, rfl⟩ := Utf8.announces_iff.1 announces
  obtain ⟨t, hread, hfirst, hworking, hrest⟩ := readByte_of_byte working h
  obtain ⟨u, htail, hothers⟩ :=
    readTail_of_refusal hworking hrest (Nat.lt_of_succ_lt_succ short) refused
  refine ⟨u, ?_, hfirst.trans hothers⟩
  simp only [readChar, hread, hlength, htail]

/-- Where the announced bytes all come, they are decoded. -/
theorem readChar_of_bytes {lead : UInt8} {tail : List UInt8} {rest : List ByteRead}
    (working : s.failure = none) (h : settled s.reads = (lead :: tail).map .byte ++ rest)
    (hlength : Utf8.tailLength? lead = some tail.length) :
    ∃ t, s.readChar = ((Utf8.decode? (lead :: tail)).elim .invalid .char, t) ∧
      s.Consumes ((lead :: tail).map .byte) t := by
  obtain ⟨t, hread, hfirst, hworking, hrest⟩ := readByte_of_byte working h
  obtain ⟨u, htail, hothers⟩ := readTail_of_bytes hworking hrest
  refine ⟨u, ?_, hfirst.trans hothers⟩
  simp only [readChar, hread, hlength, htail]
  cases Utf8.decode? (lead :: tail) <;> rfl

/-- Requests go as `Request` says. -/
theorem readChar_of_request {answer : CharRead} {taken : List ByteRead}
    (working : s.failure = none) (h : Request (settled s.reads) answer taken) :
    ∃ t, s.readChar = (answer, t) ∧ s.Consumes taken t := by
  obtain ⟨t, hread, consumes, -⟩ := readByte_eq working
  cases h with
  | endOfInput ended =>
    rw [ended] at hread
    exact ⟨t, by simp only [readChar, hread]; rfl, consumes⟩
  | failure hitems =>
    rw [hitems] at hread consumes
    exact ⟨t, by simp only [readChar, hread]; rfl, consumes⟩
  | @stray b rest hitems stray =>
    have hlength : Utf8.tailLength? b = none := by
      rw [Option.eq_none_iff_forall_ne_some]
      exact fun n hn => stray (n + 1) (Utf8.announces_iff.2 ⟨n, hn, rfl⟩)
    obtain ⟨u, hbyte, hconsumes, -⟩ := readByte_of_byte working hitems
    exact ⟨u, by simp only [readChar, hbyte, hlength], hconsumes⟩
  | @char c rest hitems =>
    obtain ⟨lead, tail, hbytes, hlength⟩ := Utf8.exists_utf8EncodeChar_eq_cons c
    rw [hbytes] at hitems ⊢
    obtain ⟨u, hchar, hconsumes⟩ := readChar_of_bytes working hitems hlength
    rw [Utf8.decode?_eq_some_iff.2 hbytes.symm] at hchar
    exact ⟨u, hchar, hconsumes⟩
  | @malformed lead tail rest hitems announces none =>
    obtain ⟨n, hlength, hn⟩ := Utf8.announces_iff.1 announces
    obtain rfl : n = tail.length := Nat.succ.inj hn
    obtain ⟨u, hchar, hconsumes⟩ := readChar_of_bytes working hitems hlength
    have hdecode : Utf8.decode? (lead :: tail) = .none := by
      rw [Option.eq_none_iff_forall_ne_some]
      exact fun c hc => none c (Utf8.decode?_eq_some_iff.1 hc).symm
    rw [hdecode] at hchar
    exact ⟨u, hchar, hconsumes⟩
  | truncated hitems announces short ended =>
    exact readChar_of_refusal working hitems announces short (by rw [ended]; rfl)
  | broken hitems announces short =>
    exact readChar_of_refusal working hitems announces short rfl

/-- Every request goes in some way. -/
theorem exists_request_consumes (working : s.failure = none) :
    ∃ taken, Request (settled s.reads) s.readChar.1 taken ∧ s.Consumes taken s.readChar.2 := by
  obtain ⟨answer, taken, h⟩ := exists_request (interrupted_notMem_settled s.reads)
  obtain ⟨t, hread, consumes⟩ := readChar_of_request working h
  rw [hread]
  exact ⟨taken, h, consumes⟩

theorem readChar_eq_iff (working : s.failure = none) (answer : CharRead) :
    s.readChar.1 = answer ↔ ∃ taken, Request (settled s.reads) answer taken := by
  constructor
  · rintro rfl
    obtain ⟨taken, h, -⟩ := exists_request_consumes working
    exact ⟨taken, h⟩
  · rintro ⟨taken, h⟩
    obtain ⟨t, hread, -⟩ := readChar_of_request working h
    rw [hread]

/-- There is one way that a request goes, with what it takes and its answer. -/
theorem request_iff (working : s.failure = none) {taken : List ByteRead}
    (hreads : s.reads = taken ++ s.readChar.2.reads) (answer : CharRead) (used : List ByteRead) :
    Request (settled s.reads) answer used ↔ s.readChar.1 = answer ∧ settled taken = used := by
  constructor
  · intro h
    obtain ⟨t, hread, -, taken', hreads', rfl, -⟩ := readChar_of_request working h
    rw [hread] at hreads ⊢
    exact ⟨rfl, congrArg settled (List.append_cancel_right (hreads.symm.trans hreads'))⟩
  · rintro ⟨rfl, rfl⟩
    obtain ⟨used, request, -, taken', hreads', rfl, -⟩ := exists_request_consumes working
    obtain rfl := List.append_cancel_right (hreads.symm.trans hreads')
    exact request

/-! ## Using up a script -/

/-- What is left of a stream after a number of requests for a character. -/
def after : ℕ → ByteStream → ByteStream
  | 0, s => s
  | n + 1, s => after n s.readChar.2

theorem readChar_of_settled_nil (working : s.failure = none) (h : settled s.reads = []) :
    s.readChar = (.endOfInput, ⟨[], none⟩) := by
  rw [readChar, readByte_of_settled_nil working h]

theorem Consumes.length_settled (h : s.Consumes items t) :
    items.length + (settled t.reads).length = (settled s.reads).length := by
  obtain ⟨-, taken, hreads, rfl, -⟩ := h
  rw [hreads, settled_append, List.length_append]

theorem Consumes.length_lt (h : s.Consumes items t) (hne : items ≠ []) :
    t.reads.length < s.reads.length := by
  obtain ⟨-, taken, hreads, rfl, -⟩ := h
  have htaken : taken ≠ [] := fun hnil => hne (by rw [hnil]; rfl)
  have hpos := List.length_pos_iff.2 htaken
  rw [hreads, List.length_append]
  omega

/-- As many requests as there are reads that are no interruptions use them up. -/
theorem settled_after (working : s.failure = none) {n : ℕ} (le : (settled s.reads).length ≤ n) :
    (s.after n).failure = none ∧ settled (s.after n).reads = [] := by
  induction n generalizing s with
  | zero => exact ⟨working, List.length_eq_zero_iff.1 (Nat.le_zero.1 le)⟩
  | succ n ih =>
    obtain ⟨taken, request, consumes⟩ := exists_request_consumes working
    refine ih (consumes.failure_eq.trans working) ?_
    have hlength := consumes.length_settled
    by_cases hnil : settled s.reads = []
    · rw [hnil, List.length_nil] at hlength
      omega
    · have hpos := List.length_pos_iff.2 (request.taken_ne_nil hnil)
      omega

/-- As many requests as there are reads use up a script with its interruptions. -/
theorem reads_after (working : s.failure = none) {n : ℕ} (le : s.reads.length ≤ n) :
    (s.after n).reads = [] := by
  induction n generalizing s with
  | zero => exact List.length_eq_zero_iff.1 (Nat.le_zero.1 le)
  | succ n ih =>
    obtain ⟨taken, request, consumes⟩ := exists_request_consumes working
    refine ih (consumes.failure_eq.trans working) ?_
    by_cases hnil : settled s.reads = []
    · rw [readChar_of_settled_nil working hnil]
      exact Nat.zero_le n
    · have hlt := consumes.length_lt (request.taken_ne_nil hnil)
      omega

end ByteStream

/-! ## All scripts -/

/-- The encoding of a character comes first. -/
def Spells (items : List ByteRead) (c : Char) : Prop :=
  (String.utf8EncodeChar c).map .byte <+: items

/-- An end of the input comes first, or nothing does. -/
def AtEnd (items : List ByteRead) : Prop := items = [] ∨ items.head? = some .endOfInput

/-- A failure comes first, or behind a byte that announces more before all of these have come. -/
def Breaks (items : List ByteRead) (message : String) : Prop :=
  items.head? = some (.failure message) ∨
    ∃ lead w tail, Utf8.Announces lead w ∧ tail.length + 1 < w ∧
      (lead :: tail).map .byte ++ [.failure message] <+: items

section

variable {items : List ByteRead}

theorem exists_request_char_iff (c : Char) :
    (∃ taken, Request items (.char c) taken) ↔ Spells items c := by
  constructor
  · rintro ⟨taken, h⟩
    cases h with
    | char hitems => exact ⟨_, hitems.symm⟩
  · rintro ⟨rest, hitems⟩
    exact ⟨_, .char hitems.symm⟩

theorem upcoming_eq_endOfInput_iff : upcoming items = .endOfInput ↔ AtEnd items := by
  cases items <;> simp [upcoming, AtEnd]

theorem exists_request_endOfInput_iff :
    (∃ taken, Request items .endOfInput taken) ↔ AtEnd items := by
  rw [← upcoming_eq_endOfInput_iff]
  constructor
  · rintro ⟨taken, h⟩
    cases h with
    | endOfInput ended => exact ended
  · exact fun ended => ⟨_, .endOfInput ended⟩

theorem exists_request_failure_iff (message : String) :
    (∃ taken, Request items (.failure message) taken) ↔ Breaks items message := by
  constructor
  · rintro ⟨taken, h⟩
    cases h with
    | failure hitems => exact .inl (by rw [hitems]; rfl)
    | broken hitems announces short =>
      exact .inr ⟨_, _, _, announces, short, _, by rw [hitems, List.append_assoc]; rfl⟩
  · rintro (hhead | ⟨lead, w, tail, announces, short, rest, hitems⟩)
    · obtain ⟨rest, hitems⟩ := List.head?_eq_some_iff.1 hhead
      exact ⟨_, .failure hitems⟩
    · rw [List.append_assoc] at hitems
      exact ⟨_, .broken hitems.symm announces short⟩

end

namespace ByteStream

/-- The answer to a request for a character, from any script: a character if its encoding comes
first, the end of the input or a failure if one comes first or, for a failure, in the middle of what
a byte announces, and no character in all other cases.  A request takes what `Request` says and, at
most, the interruptions in between, and thus uses up a script when it is repeated. -/
theorem readChar_classification (reads : List ByteRead) :
    let s : ByteStream := ⟨reads, none⟩
    let items := settled reads
    (∀ c, s.readChar.1 = .char c ↔ Spells items c) ∧
    (s.readChar.1 = .endOfInput ↔ AtEnd items) ∧
    (∀ message, s.readChar.1 = .failure message ↔ Breaks items message) ∧
    (s.readChar.1 = .invalid ↔
      (∀ c, ¬ Spells items c) ∧ ¬ AtEnd items ∧ ∀ message, ¬ Breaks items message) ∧
    (∃ taken left, s.readChar.2 = ⟨left, none⟩ ∧ reads = taken ++ left ∧
      (taken.getLast? = some .interrupted → left = []) ∧
      (∀ answer used, Request items answer used ↔ s.readChar.1 = answer ∧ settled taken = used) ∧
      (settled taken).length ≤ 4 ∧ (items ≠ [] → settled taken ≠ [])) ∧
    (∀ n, items.length ≤ n →
      settled (s.after n).reads = [] ∧ (s.after n).readChar.1 = .endOfInput) ∧
    (∀ n, reads.length ≤ n → (s.after n).reads = []) := by
  intro s items
  have working : s.failure = none := rfl
  have hchar (c : Char) : s.readChar.1 = .char c ↔ Spells items c :=
    (readChar_eq_iff working _).trans (exists_request_char_iff c)
  have hend : s.readChar.1 = .endOfInput ↔ AtEnd items :=
    (readChar_eq_iff working _).trans exists_request_endOfInput_iff
  have hfailure (message : String) : s.readChar.1 = .failure message ↔ Breaks items message :=
    (readChar_eq_iff working _).trans (exists_request_failure_iff message)
  refine ⟨hchar, hend, hfailure, ?_, ?_, fun n le => ?_, fun n le => reads_after working le⟩
  · simp only [← hchar, ← hend, ← hfailure]
    cases s.readChar.1 <;> simp
  · obtain ⟨used, request, kept, taken, hreads, rfl, hlast⟩ := exists_request_consumes working
    have hleft : s.readChar.2 = ⟨s.readChar.2.reads, none⟩ := congrArg (ByteStream.mk _) kept
    exact ⟨taken, s.readChar.2.reads, hleft, hreads, hlast, request_iff working hreads,
      request.length_le_four, request.taken_ne_nil⟩
  · obtain ⟨hworking, hnil⟩ := settled_after working le
    exact ⟨hnil, congrArg Prod.fst (readChar_of_settled_nil hworking hnil)⟩

example :
    readChar ⟨[.byte 0xE2, .interrupted, .byte 0x82, .failure "gone", .byte 0xAC], none⟩ =
      (.failure "gone", ⟨[.byte 0xAC], none⟩) := by
  decide +kernel

end ByteStream

end Brainfuck
