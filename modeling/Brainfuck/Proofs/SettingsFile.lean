import Brainfuck.Proofs.Encoding
import Brainfuck.Proofs.SizeSources
import Brainfuck.Proofs.Trimming

/-!
# The settings file

A settings file gives the memory size by its last assignment line in the right section.  Which lines
are assignments (`Settings.Assigns`), to which section a line belongs (`Settings.InSection`) and
which assignment is the last (`Settings.LastAssigned`) is said of the lines alone, by their indices.
The reader goes through the lines once, with a flag for the section and the last value so far;
`Settings.lastValue_eq_some_iff` says that it finds the last assignment, and
`Settings.last_assignment_decides` what follows for a whole file.
-/

namespace Brainfuck.Settings

variable {lines : List (List Char)} {line key rest value name : List Char} {i : ℕ}

/-! ## Lines -/

/-- The lines of a file, each without white space at both ends. -/
def trimmedLines (content : String) : List (List Char) :=
  (Text.split '\n' content.toList).map Text.trim

/-- A header starts with an opening bracket and ends with a closing one. -/
structure IsHeader (line : List Char) : Prop where
  first : line.head? = some '['
  last : line.getLast? = some ']'

/-- A header with a name between the brackets, where white space around it does not count. -/
def Names (line name : List Char) : Prop :=
  ∃ inner, line = '[' :: (inner ++ [']']) ∧ Text.trim inner = name

/-- A line that gives a value for the memory size, if it stands in the right section. -/
structure Assigns (line value : List Char) : Prop where
  no_comment : line.head? ≠ some '#'
  no_header : ¬ IsHeader line
  split : ∃ key rest, line = key ++ '=' :: rest ∧ '=' ∉ key ∧ Text.trim key = memorySizeKey ∧
    Text.strip (· = '"') (Text.trim rest) = value

/-- The two brackets of a header are different characters. -/
theorem IsHeader.exists_inner (h : IsHeader line) : ∃ inner, line = '[' :: (inner ++ [']']) := by
  obtain ⟨first, last⟩ := h
  cases line with
  | nil => cases first
  | cons c cs =>
    obtain rfl : c = '[' := Option.some.inj first
    cases cs with
    | nil => cases last
    | cons d cs =>
      rw [List.getLast?_cons_cons] at last
      exact ⟨(d :: cs).dropLast, by rw [List.dropLast_append_getLast? _ last]⟩

theorem Names.isHeader (h : Names line name) : IsHeader line := by
  obtain ⟨inner, rfl, -⟩ := h
  exact ⟨rfl, by rw [← List.cons_append, List.getLast?_concat]⟩

/-- The brackets of a header are a byte each, so that the bytes between them are in range and are
those of what stands there. -/
theorem IsHeader.encode_inner (h : IsHeader line) :
    ∃ inner, line = '[' :: (inner ++ [']']) ∧ 1 ≤ (Utf8.encode line).length - 1 ∧
      (Utf8.encode line).extract 1 ((Utf8.encode line).length - 1) = Utf8.encode inner := by
  obtain ⟨inner, rfl⟩ := h.exists_inner
  have hencode : Utf8.encode ('[' :: (inner ++ [']'])) = 0x5B :: (Utf8.encode inner ++ [0x5D]) := by
    rw [Utf8.encode_cons, Utf8.encode, List.flatMap_append]
    rfl
  refine ⟨inner, rfl, ?_, ?_⟩ <;> rw [hencode]
  · simp
  · simp [List.extract_eq_take_drop]

theorem ofTrimmed_eq_header_iff : Line.ofTrimmed line = .header name ↔ Names line name := by
  constructor
  · intro h
    unfold Line.ofTrimmed at h
    split_ifs at h with hblank hheader
    · cases h
      obtain ⟨inner, rfl⟩ := IsHeader.exists_inner ⟨hheader.1, hheader.2⟩
      exact ⟨inner, rfl, by rw [List.tail_cons, List.dropLast_concat]⟩
    · split at h <;> cases h
  · intro h
    obtain ⟨first, last⟩ := h.isHeader
    obtain ⟨inner, rfl, rfl⟩ := h
    simp [Line.ofTrimmed, last]

theorem isHeader_iff : IsHeader line ↔ ∃ name, Line.ofTrimmed line = .header name := by
  constructor
  · intro h
    obtain ⟨inner, hline⟩ := h.exists_inner
    exact ⟨_, ofTrimmed_eq_header_iff.2 ⟨inner, hline, rfl⟩⟩
  · rintro ⟨name, h⟩
    exact (ofTrimmed_eq_header_iff.1 h).isHeader

theorem ofTrimmed_eq_assignment_iff :
    Line.ofTrimmed line = .assignment memorySizeKey value ↔ Assigns line value := by
  constructor
  · intro h
    unfold Line.ofTrimmed at h
    split_ifs at h with hblank hheader
    split at h
    · cases h
    · next c rest hrest =>
      obtain ⟨hname, hvalue⟩ := Line.assignment.inj h
      have hc : decide (c ≠ '=') = false := Text.eq_false_of_head?_dropWhile (by rw [hrest]; rfl)
      obtain rfl : c = '=' := by simpa using hc
      refine ⟨fun hcomment => hblank (.inr hcomment), fun ⟨first, last⟩ => hheader ⟨first, last⟩,
        _, rest, ?_, fun hmem => ?_, hname, hvalue⟩
      · rw [← hrest, List.takeWhile_append_dropWhile]
      · exact absurd (List.mem_takeWhile_imp hmem) (by simp)
  · rintro ⟨no_comment, no_header, key, rest, rfl, hkey, hname, hvalue⟩
    obtain ⟨htake, hdrop⟩ := Text.span_append_cons hkey rest
    have hblank : ¬ (key ++ '=' :: rest = [] ∨ (key ++ '=' :: rest).head? = some '#') :=
      not_or.2 ⟨by simp, no_comment⟩
    rw [Line.ofTrimmed, if_neg hblank, if_neg fun h => no_header ⟨h.1, h.2⟩, htake, hdrop]
    dsimp only
    rw [hname, hvalue]

/-- Whether lines end in the section that counts, if it is known whether they start in it. -/
def endsInside : (inside : Bool) → List Line → Bool
  | inside, [] => inside
  | _, .header name :: rest => endsInside (name = sectionName) rest
  | inside, .blank :: rest => endsInside inside rest
  | inside, .assignment _ _ :: rest => endsInside inside rest

theorem lastValue_append (key : List Char) (inside : Bool) (found : Option (List Char))
    (ls rest : List Line) : lastValue key inside found (ls ++ rest) =
      lastValue key (endsInside inside ls) (lastValue key inside found ls) rest := by
  induction ls generalizing inside found with
  | nil => rfl
  | cons l ls ih => cases l <;> exact ih _ _

theorem endsInside_append (inside : Bool) (ls rest : List Line) :
    endsInside inside (ls ++ rest) = endsInside (endsInside inside ls) rest := by
  induction ls generalizing inside with
  | nil => rfl
  | cons l ls ih => cases l <;> exact ih _

/-! ## Sections and assignments -/

/-- The header that comes last before the line with an index is the one of the section that counts. -/
def InSection (lines : List (List Char)) (i : ℕ) : Prop :=
  ∃ h header, h < i ∧ lines[h]? = some header ∧ Names header sectionName ∧
    ∀ j line, h < j → j < i → lines[j]? = some line → ¬ IsHeader line

/-- The line with an index gives a value for the memory size, and stands in the right section. -/
def AssignsAt (lines : List (List Char)) (i : ℕ) (value : List Char) : Prop :=
  ∃ line, lines[i]? = some line ∧ Assigns line value ∧ InSection lines i

/-- The line with an index is the last of those that give the memory size. -/
structure LastAssignsAt (lines : List (List Char)) (i : ℕ) (value : List Char) : Prop where
  assigns : AssignsAt lines i value
  last : ∀ j value', i < j → ¬ AssignsAt lines j value'

/-- The last of the lines that give the memory size gives it this value. -/
def LastAssigned (lines : List (List Char)) (value : List Char) : Prop :=
  ∃ i, LastAssignsAt lines i value

/-- What stands behind a line does not count for its section. -/
theorem inSection_append (hi : i ≤ lines.length) (rest : List (List Char)) :
    InSection (lines ++ rest) i ↔ InSection lines i := by
  have hget : ∀ j, j < i → (lines ++ rest)[j]? = lines[j]? := fun j hj =>
    List.getElem?_append_left (hj.trans_le hi)
  unfold InSection
  constructor
  · rintro ⟨h, header, hlt, hh, names, between⟩
    exact ⟨h, header, hlt, hget h hlt ▸ hh, names, fun j l hj hji hl =>
      between j l hj hji ((hget j hji).trans hl)⟩
  · rintro ⟨h, header, hlt, hh, names, between⟩
    exact ⟨h, header, hlt, (hget h hlt).trans hh, names, fun j l hj hji hl =>
      between j l hj hji (hget j hji ▸ hl)⟩

/-- The section changes at headers only. -/
theorem inSection_succ_iff (hline : lines[i]? = some line) : InSection lines (i + 1) ↔
    Names line sectionName ∨ ¬ IsHeader line ∧ InSection lines i := by
  constructor
  · rintro ⟨h, header, hlt, hh, names, between⟩
    rcases Nat.lt_succ_iff_lt_or_eq.1 hlt with hlt | rfl
    · exact .inr ⟨between i line hlt i.lt_succ_self hline, h, header, hlt, hh, names,
        fun j l hj hji => between j l hj (Nat.lt_succ_of_lt hji)⟩
    · obtain rfl : header = line := Option.some.inj (hh.symm.trans hline)
      exact .inl names
  · rintro (names | ⟨no_header, h, header, hlt, hh, names, between⟩)
    · exact ⟨i, line, i.lt_succ_self, hline, names, fun j l hj hji => by omega⟩
    · refine ⟨h, header, Nat.lt_succ_of_lt hlt, hh, names, fun j l hj hji hl => ?_⟩
      rcases Nat.lt_succ_iff_lt_or_eq.1 hji with hji | rfl
      · exact between j l hj hji hl
      · obtain rfl : l = line := Option.some.inj (hl.symm.trans hline)
        exact no_header

theorem AssignsAt.lt_length (h : AssignsAt lines i value) : i < lines.length := by
  obtain ⟨line, hline, -⟩ := h
  exact (List.getElem?_eq_some_iff.1 hline).1

/-- A line at the end adds itself to the assignments, if it is one. -/
theorem assignsAt_concat_iff : AssignsAt (lines ++ [line]) i value ↔ AssignsAt lines i value ∨
    i = lines.length ∧ InSection lines lines.length ∧ Assigns line value := by
  have hlast : (lines ++ [line])[lines.length]? = some line := List.getElem?_concat_length
  constructor
  · rintro ⟨l, hl, assigns, inside⟩
    have hlt : i < (lines ++ [line]).length := (List.getElem?_eq_some_iff.1 hl).1
    rw [List.length_append, List.length_singleton] at hlt
    rw [inSection_append (Nat.le_of_lt_succ hlt)] at inside
    rcases Nat.lt_succ_iff_lt_or_eq.1 hlt with hlt | rfl
    · rw [List.getElem?_append_left hlt] at hl
      exact .inl ⟨l, hl, assigns, inside⟩
    · obtain rfl : l = line := Option.some.inj (hl.symm.trans hlast)
      exact .inr ⟨rfl, inside, assigns⟩
  · rintro (assigned | ⟨rfl, inside, assigns⟩)
    · have hlt := assigned.lt_length
      obtain ⟨l, hl, assigns, inside⟩ := assigned
      exact ⟨l, (List.getElem?_append_left hlt).trans hl, assigns, (inSection_append hlt.le _).2 inside⟩
    · exact ⟨line, hlast, assigns, (inSection_append le_rfl _).2 inside⟩

/-- A line at the end that gives a value is the last one that does. -/
theorem lastAssignsAt_concat_self (inside : InSection lines lines.length) (h : Assigns line value) :
    LastAssignsAt (lines ++ [line]) lines.length value := by
  refine ⟨assignsAt_concat_iff.2 (.inr ⟨rfl, inside, h⟩), fun j value' hlt assigned => ?_⟩
  have hj := assigned.lt_length
  rw [List.length_append, List.length_singleton] at hj
  omega

/-- A line at the end that gives no value leaves the last one that does. -/
theorem lastAssignsAt_concat_iff
    (none_here : ¬ (InSection lines lines.length ∧ ∃ value', Assigns line value')) :
    LastAssignsAt (lines ++ [line]) i value ↔ LastAssignsAt lines i value := by
  have same : ∀ j value', AssignsAt (lines ++ [line]) j value' ↔ AssignsAt lines j value' := by
    intro j value'
    rw [assignsAt_concat_iff]
    exact or_iff_left fun ⟨_, inside, assigns⟩ => none_here ⟨inside, value', assigns⟩
  constructor
  · rintro ⟨assigned, last⟩
    exact ⟨(same _ _).1 assigned, fun j value' hij h => last j value' hij ((same _ _).2 h)⟩
  · rintro ⟨assigned, last⟩
    exact ⟨(same _ _).2 assigned, fun j value' hij h => last j value' hij ((same _ _).1 h)⟩

theorem lastAssigned_concat_iff : LastAssigned (lines ++ [line]) value ↔
    InSection lines lines.length ∧ Assigns line value ∨
    ¬ (InSection lines lines.length ∧ ∃ value', Assigns line value') ∧ LastAssigned lines value := by
  by_cases here : InSection lines lines.length ∧ ∃ value', Assigns line value'
  · obtain ⟨inside, value', assigns⟩ := here
    have at_end := lastAssignsAt_concat_self inside assigns
    constructor
    · rintro ⟨i, assigned, last⟩
      rcases assignsAt_concat_iff.1 assigned with h | ⟨-, -, h⟩
      · exact absurd at_end.assigns (last _ _ h.lt_length)
      · exact .inl ⟨inside, h⟩
    · rintro (⟨-, h⟩ | ⟨none_here, -⟩)
      · exact ⟨_, lastAssignsAt_concat_self inside h⟩
      · exact absurd ⟨inside, value', assigns⟩ none_here
  · have unread : ¬ (InSection lines lines.length ∧ Assigns line value) :=
      fun ⟨inside, assigns⟩ => here ⟨inside, value, assigns⟩
    rw [or_iff_right unread, and_iff_right here]
    exact exists_congr fun i => lastAssignsAt_concat_iff here

/-- A line that is no header does not count for the sections of others. -/
theorem inSection_remove_iff (no_header : ¬ IsHeader line) (front back : List (List Char)) :
    InSection (front ++ line :: back) (front ++ line :: back).length ↔
      InSection (front ++ back) (front ++ back).length := by
  induction back using List.reverseRecOn with
  | nil =>
    have hlast : (front ++ [line])[front.length]? = some line := List.getElem?_concat_length
    rw [List.append_nil, List.length_append, List.length_singleton, inSection_succ_iff hlast,
      inSection_append le_rfl, and_iff_right no_header]
    exact or_iff_right fun names => no_header names.isHeader
  | append_singleton back l ih =>
    have step : ∀ ls : List (List Char), InSection (ls ++ [l]) (ls ++ [l]).length ↔
        Names l sectionName ∨ ¬ IsHeader l ∧ InSection ls ls.length := by
      intro ls
      rw [List.length_append, List.length_singleton,
        inSection_succ_iff List.getElem?_concat_length, inSection_append le_rfl]
    rw [← List.cons_append, ← List.append_assoc, ← List.append_assoc, step, step, ih]

/-- A line that is neither a header nor the last assignment does not count. -/
theorem lastAssigned_remove_iff (no_header : ¬ IsHeader line) (front back : List (List Char))
    (not_last : ∀ value, ¬ LastAssignsAt (front ++ line :: back) front.length value) :
    LastAssigned (front ++ line :: back) value ↔ LastAssigned (front ++ back) value := by
  -- lines come in at the end, so that the line keeps its index while others follow
  induction back using List.reverseRecOn with
  | nil =>
    have none_here : ¬ (InSection front front.length ∧ ∃ value', Assigns line value') :=
      fun ⟨inside, value', assigns⟩ => not_last value' (lastAssignsAt_concat_self inside assigns)
    rw [List.append_nil]
    exact exists_congr fun i => lastAssignsAt_concat_iff none_here
  | append_singleton back l ih =>
    rw [← List.cons_append, ← List.append_assoc] at not_last ⊢
    rw [← List.append_assoc, lastAssigned_concat_iff, lastAssigned_concat_iff,
      inSection_remove_iff no_header]
    refine or_congr_right (and_congr_right fun none_here => ih fun value' h => ?_)
    rw [← inSection_remove_iff no_header] at none_here
    exact not_last value' ((lastAssignsAt_concat_iff none_here).2 h)

/-! ## The reader -/

/-- One more line of the reader's way through the sections. -/
theorem endsInside_singleton (inside : Bool) (line : List Char) :
    endsInside inside [Line.ofTrimmed line] = true ↔
      Names line sectionName ∨ ¬ IsHeader line ∧ inside = true := by
  rw [isHeader_iff, ← ofTrimmed_eq_header_iff]
  cases Line.ofTrimmed line <;> simp [endsInside]

/-- One more line of the reader's way to the last value. -/
theorem lastValue_singleton (inside : Bool) (found : Option (List Char)) (line value : List Char) :
    lastValue memorySizeKey inside found [Line.ofTrimmed line] = some value ↔
      inside = true ∧ Assigns line value ∨
      ¬ (inside = true ∧ ∃ value', Assigns line value') ∧ found = some value := by
  simp only [← ofTrimmed_eq_assignment_iff]
  cases Line.ofTrimmed line with
  | blank | header => simp [lastValue]
  | assignment k v =>
    have step : lastValue memorySizeKey inside found [.assignment k v] =
        if inside = true ∧ k = memorySizeKey then some v else found := rfl
    rw [step]
    by_cases counts : inside = true ∧ k = memorySizeKey
    · obtain ⟨rfl, rfl⟩ := counts
      simp
    · have unread : ∀ value',
          ¬ (inside = true ∧ Line.assignment k v = .assignment memorySizeKey value') :=
        fun value' ⟨inside, h⟩ => counts ⟨inside, (Line.assignment.inj h).1⟩
      have none_here :
          ¬ (inside = true ∧ ∃ value', Line.assignment k v = .assignment memorySizeKey value') :=
        fun ⟨inside, value', h⟩ => unread value' ⟨inside, h⟩
      rw [if_neg counts, or_iff_right (unread value), and_iff_right none_here]

/-- The flag of the reader is right at every line. -/
theorem endsInside_iff (lines : List (List Char)) :
    endsInside false (lines.map Line.ofTrimmed) = true ↔ InSection lines lines.length := by
  induction lines using List.reverseRecOn with
  | nil => simp [endsInside, InSection]
  | append_singleton lines line ih =>
    have hlast : (lines ++ [line])[lines.length]? = some line := List.getElem?_concat_length
    rw [List.map_append, endsInside_append, List.map_singleton, endsInside_singleton, ih,
      List.length_append, List.length_singleton, inSection_succ_iff hlast,
      inSection_append le_rfl]

/-- The reader finds the last assignment. -/
theorem lastValue_eq_some_iff (lines : List (List Char)) (value : List Char) :
    lastValue memorySizeKey false none (lines.map Line.ofTrimmed) = some value ↔
      LastAssigned lines value := by
  induction lines using List.reverseRecOn with
  | nil => exact ⟨nofun, fun ⟨_, h⟩ => absurd h.assigns.lt_length (Nat.not_lt_zero _)⟩
  | append_singleton lines line ih =>
    rw [List.map_append, lastValue_append, List.map_singleton, lastValue_singleton, ih,
      endsInside_iff, lastAssigned_concat_iff]

/-! ## Files -/

theorem parse_memorySize (content : String) : (parse content).memorySize =
    (lastValue memorySizeKey false none ((trimmedLines content).map Line.ofTrimmed)).bind
      fun value => memorySize? (String.ofList value) := by
  rw [trimmedLines, List.map_map]
  rfl

theorem parse_memorySize_eq_some_iff {content : String} {n : ℕ} :
    (parse content).memorySize = some n ↔ ∃ value, LastAssigned (trimmedLines content) value ∧
      parseMemorySize (String.ofList value) = .ok n := by
  simp only [parse_memorySize, Option.bind_eq_some_iff, lastValue_eq_some_iff,
    memorySize?_eq_some_iff]

/-- What a settings file says depends on its last assignment alone. -/
theorem parse_congr {content content' : String} (h : ∀ value,
    LastAssigned (trimmedLines content) value ↔ LastAssigned (trimmedLines content') value) :
    parse content = parse content' := by
  have same : (parse content).memorySize = (parse content').memorySize :=
    Option.ext fun n => by simp only [parse_memorySize_eq_some_iff, h]
  exact congrArg Settings.mk same

/-- A settings file gives the memory size that its last assignment line spells, and none if that
line spells none.  A line that is neither a header nor the last assignment can be removed, and the
bytes between the brackets of a header are always in range. -/
theorem last_assignment_decides (content : String) :
    (∀ n, (parse content).memorySize = some n ↔
      ∃ value, LastAssigned (trimmedLines content) value ∧
        parseMemorySize (String.ofList value) = .ok n) ∧
    (∀ value e, LastAssigned (trimmedLines content) value →
      parseMemorySize (String.ofList value) = .error e → (parse content).memorySize = none) ∧
    (∀ content' front line back, trimmedLines content = front ++ line :: back →
      trimmedLines content' = front ++ back → ¬ IsHeader line →
      (∀ value, ¬ LastAssignsAt (trimmedLines content) front.length value) →
      parse content' = parse content) ∧
    ∀ line ∈ trimmedLines content, IsHeader line → ∃ inner, line = '[' :: (inner ++ [']']) ∧
      1 ≤ (Utf8.encode line).length - 1 ∧
      (Utf8.encode line).extract 1 ((Utf8.encode line).length - 1) = Utf8.encode inner := by
  refine ⟨fun n => parse_memorySize_eq_some_iff, fun value e last rejected => ?_,
    fun content' front line back hlines hlines' no_header not_last => ?_,
    fun line _ header => header.encode_inner⟩
  · rw [parse_memorySize, (lastValue_eq_some_iff _ _).2 last, Option.bind_some, memorySize?, rejected]
    rfl
  · rw [hlines] at not_last
    refine parse_congr fun value => ?_
    rw [hlines, hlines', lastAssigned_remove_iff no_header front back not_last]

/-- The section is left and entered again, and the last line that gives a size counts, if it can be
read or not. -/
theorem last_assignment_decides_in_second_part :
    let rest := "[colors]\nmemory_size = 12\n[ interpreter ]\r\nmemory_size = \"1_6\"\r\n"
    let content := "[interpreter]\nmemory_size = 64\n" ++ rest
    (parse content).memorySize = some 16 ∧
      (parse (content ++ "memory_size = many")).memorySize = none ∧
      parse ("[interpreter]\n" ++ rest) = parse content ∧
      ∃ inner, "[ interpreter ]".toList = '[' :: (inner ++ [']']) ∧
        1 ≤ (Utf8.encode "[ interpreter ]".toList).length - 1 ∧
        (Utf8.encode "[ interpreter ]".toList).extract 1
          ((Utf8.encode "[ interpreter ]".toList).length - 1) = Utf8.encode inner := by
  intro rest content
  obtain ⟨sizes, -, removal, headers⟩ := last_assignment_decides content
  obtain ⟨-, rejected, -⟩ := last_assignment_decides (content ++ "memory_size = many")
  have hlines : trimmedLines content = ["[interpreter]".toList] ++ "memory_size = 64".toList ::
      ["[colors]".toList, "memory_size = 12".toList, "[ interpreter ]".toList,
        "memory_size = \"1_6\"".toList, []] := by
    decide +kernel
  have header : Names "[ interpreter ]".toList sectionName :=
    ofTrimmed_eq_header_iff.1 (by decide +kernel)
  have no_header : ¬ IsHeader "memory_size = 64".toList :=
    fun h => absurd h.first (by decide +kernel)
  have later : AssignsAt (trimmedLines content) 5 "1_6".toList := by
    rw [hlines]
    exact ⟨_, rfl, ofTrimmed_eq_assignment_iff.1 (by decide +kernel), 4, _, by decide, rfl, header,
      fun j _ hlt hgt => by omega⟩
  have last : LastAssigned (trimmedLines content) "1_6".toList :=
    (lastValue_eq_some_iff _ _).1 (by rw [hlines]; decide +kernel)
  have last' : LastAssigned (trimmedLines (content ++ "memory_size = many")) "many".toList :=
    (lastValue_eq_some_iff _ _).1 (by decide +kernel)
  refine ⟨(sizes 16).2 ⟨_, last, by decide +kernel⟩, ?_, ?_, ?_⟩
  · exact rejected _ (.number "many" .invalidDigit) last' (by decide +kernel)
  · exact removal _ _ _ _ hlines (by decide +kernel) no_header
      fun value h => h.last 5 _ (by decide) later
  · exact headers "[ interpreter ]".toList (by rw [hlines]; simp) header.isHeader

end Brainfuck.Settings
