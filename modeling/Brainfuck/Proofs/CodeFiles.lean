import Brainfuck.CommandLine.Exit
import Brainfuck.Proofs.Encoding
import Brainfuck.WorkingDirectory

/-!
# Files of code

A path is followed part by part, and the only way to a file is its name in the working directory
behind parts that lead round to this directory again (`WorkingDirectory.Returns`).  Hence what can
be read are the files of the directory, and nothing above it (`WorkingDirectory.read_eq_ok_iff`).
A file is code if it is UTF-8, and a program that is given any other path ends with the reason why
there is no code (`CommandLine.Plan.perform_file`).
-/

namespace Brainfuck

/-! ## Paths -/

namespace WorkingDirectory

variable {d : WorkingDirectory} {place : Place} {name : List Char} {way rest : List (List Char)}
  {content : ByteArray}

/-- A part of a path that leads nowhere else. -/
def Stays (name : List Char) : Prop := name = [] ∨ name = ['.']
  deriving Decidable

/-- A part of a path that is looked up among the names of a directory. -/
def Plain (name : List Char) : Prop := ¬ Stays name ∧ name ≠ ['.', '.']
  deriving Decidable

/-- The parts of a path lead back to the directory, from itself or from an empty directory in it. -/
inductive Returns (d : WorkingDirectory) : Place → List (List Char) → Prop
  | here : Returns d .here []
  | stay {place : Place} {name : List Char} {rest : List (List Char)} :
      Stays name → Returns d place rest → Returns d place (name :: rest)
  | down {name : List Char} {rest : List (List Char)} :
      Plain name → d.entries.lookup (String.ofList name) = some .directory →
      Returns d .below rest → Returns d .here (name :: rest)
  | up {rest : List (List Char)} :
      Returns d .here rest → Returns d .below (['.', '.'] :: rest)

theorem enter_of_stays (h : Stays name) (hplace : place = .here ∨ place = .below)
    (d : WorkingDirectory) : d.enter place name = .ok place := by
  rcases hplace with rfl | rfl <;> exact if_pos h

/-- A name in the directory leads to what it stands for. -/
theorem enter_here (h : Plain name) (d : WorkingDirectory) :
    d.enter .here name =
      match d.entries.lookup (String.ofList name) with
      | none => .error (refusalOf name)
      | some .directory => .ok .below
      | some (.file content) => .ok (.file content) := by
  refine (if_neg h.1).trans ((if_neg h.2).trans ?_)
  rcases d.entries.lookup (String.ofList name) with _ | _ | _ <;> rfl

/-- There are no names in an empty directory. -/
theorem enter_below (h : Plain name) (d : WorkingDirectory) :
    d.enter .below name = .error (refusalOf name) :=
  (if_neg h.1).trans (if_neg h.2)

/-- From above the directory there is no way down. -/
theorem follow_above (d : WorkingDirectory) (parts : List (List Char)) (content : ByteArray) :
    d.follow .above parts ≠ .ok (.file content) := by
  induction parts with
  | nil => exact nofun
  | cons name rest ih =>
    unfold follow enter
    dsimp only
    split
    · next hnext =>
      split at hnext <;> cases hnext
      exact ih
    · exact nofun

/-- There is nothing behind a file. -/
theorem follow_file {content' : ByteArray} {parts : List (List Char)}
    (h : d.follow (.file content') parts = .ok (.file content)) :
    parts = [] ∧ content' = content := by
  cases parts with
  | nil =>
    cases h
    exact ⟨rfl, rfl⟩
  | cons name rest => cases h

theorem Returns.place_eq (h : d.Returns place way) : place = .here ∨ place = .below := by
  induction h with
  | here | down => exact .inl rfl
  | up => exact .inr rfl
  | stay _ _ ih => exact ih

theorem follow_of_returns (h : d.Returns place way) (rest : List (List Char)) :
    d.follow place (way ++ rest) = d.follow .here rest := by
  induction h with
  | here => rfl
  | stay stays returns ih =>
    rw [List.cons_append, follow, enter_of_stays stays returns.place_eq]
    exact ih
  | down plain hlookup _ ih =>
    rw [List.cons_append, follow, enter_here plain, hlookup]
    exact ih
  | up _ ih => exact ih

theorem exists_returns_of_follow {parts : List (List Char)}
    (hplace : place = .here ∨ place = .below) (h : d.follow place parts = .ok (.file content)) :
    ∃ way name, parts = way ++ [name] ∧ d.Returns place way ∧ Plain name ∧
      d.entries.lookup (String.ofList name) = some (.file content) := by
  induction parts generalizing place with
  | nil => rcases hplace with rfl | rfl <;> cases h
  | cons name rest ih =>
    by_cases stays : Stays name
    · rw [follow, enter_of_stays stays hplace] at h
      obtain ⟨way, last, rfl, returns, found⟩ := ih hplace h
      exact ⟨name :: way, last, rfl, .stay stays returns, found⟩
    by_cases up : name = ['.', '.']
    · subst up
      rcases hplace with rfl | rfl
      · exact absurd h (follow_above d rest content)
      · obtain ⟨way, last, rfl, returns, found⟩ := ih (.inl rfl) h
        exact ⟨['.', '.'] :: way, last, rfl, .up returns, found⟩
    have plain : Plain name := ⟨stays, up⟩
    rcases hplace with rfl | rfl
    · rw [follow, enter_here plain] at h
      rcases hlookup : d.entries.lookup (String.ofList name) with _ | content' | _ <;>
        rw [hlookup] at h
      · cases h
      · obtain ⟨rfl, rfl⟩ := follow_file h
        exact ⟨[], name, rfl, .here, plain, hlookup⟩
      · obtain ⟨way, last, rfl, returns, found⟩ := ih (.inr rfl) h
        exact ⟨name :: way, last, rfl, .down plain hlookup returns, found⟩
    · rw [follow, enter_below plain] at h
      cases h

/-- The last part on the way to a file is its name in the directory, and the parts in front of it
lead back there. -/
theorem follow_eq_file_iff (parts : List (List Char)) :
    d.follow .here parts = .ok (.file content) ↔
      ∃ way name, parts = way ++ [name] ∧ d.Returns .here way ∧ Plain name ∧
        d.entries.lookup (String.ofList name) = some (.file content) := by
  refine ⟨exists_returns_of_follow (.inl rfl), ?_⟩
  rintro ⟨way, name, rfl, returns, plain, hlookup⟩
  rw [follow_of_returns returns, follow, enter_here plain, hlookup]
  rfl

theorem bind_content_eq_ok_iff {x : Except Refusal Place} :
    x.bind Place.content = .ok content ↔ x = .ok (.file content) := by
  rcases x with e | _ | _ | _ | content' <;> simp [Except.bind, Place.content]

/-- What can be read are the files of the directory, by paths that begin in it.  The last part of
the path is the name of the file, and the parts in front of it lead back to the directory. -/
theorem read_eq_ok_iff {path : String} :
    d.read path = .ok content ↔
      path.utf8ByteSize < pathLimit ∧ path.toList.head? ≠ some '/' ∧
      ∃ way name, Text.split '/' path.toList = way ++ [name] ∧ d.Returns .here way ∧ Plain name ∧
        d.entries.lookup (String.ofList name) = some (.file content) := by
  rw [← follow_eq_file_iff]
  unfold read
  cases path.toList with
  | nil => exact ⟨nofun, fun h => nomatch h.2.2⟩
  | cons c cs =>
    dsimp only
    by_cases long : pathLimit ≤ path.utf8ByteSize
    · rw [if_pos long]
      exact ⟨nofun, fun h => absurd h.1 (Nat.not_lt.2 long)⟩
    rw [if_neg long, bind_content_eq_ok_iff]
    by_cases slash : c = '/'
    · rw [if_pos slash]
      exact ⟨fun h => absurd h (follow_above d _ _), fun h => absurd (congrArg some slash) h.2.1⟩
    · rw [if_neg slash]
      exact ⟨fun h => ⟨Nat.not_le.1 long, fun hc => slash (Option.some.inj hc), h⟩, fun h => h.2.2⟩

example : (read ⟨[("a", .directory), ("x", .file ⟨#[43]⟩)]⟩ "./a/../x").toOption =
    some ⟨#[43]⟩ := by
  decide +kernel

theorem readFile_eq_ok_iff {path : String} :
    d.readFile path = .ok content ↔ d.read path = .ok content := by
  unfold readFile
  cases d.read path <;> simp [Except.mapError]

theorem readFile_eq_error_iff {path reason : String} :
    d.readFile path = .error reason ↔ ∃ r, d.read path = .error r ∧ r.text = reason := by
  unfold readFile
  cases d.read path <;> simp [Except.mapError]

/-- A file in the directory can be read by its name. -/
theorem readFile_of_lookup (d : WorkingDirectory) (name : String) (plain : Plain name.toList)
    (part : '/' ∉ name.toList) (short : name.utf8ByteSize < pathLimit)
    (h : d.entries.lookup name = some (.file content)) : d.readFile name = .ok content := by
  refine readFile_eq_ok_iff.2 (read_eq_ok_iff.2 ⟨short, fun slash => ?_, [], name.toList,
    Text.split_of_notMem part, .here, plain, ?_⟩)
  · exact part (List.mem_of_mem_head? slash)
  · rw [String.ofList_toList]
    exact h

end WorkingDirectory

/-! ## Code -/

namespace CommandLine.CodeLocation

variable {readFile : String → Except String ByteArray} {path text : String}

/-- A file is code if it can be read and is UTF-8. -/
theorem text_file_eq_ok_iff :
    (CodeLocation.file path).text readFile = .ok text ↔ readFile path = .ok text.toUTF8 := by
  unfold CodeLocation.text
  dsimp only
  cases hread : readFile path with
  | error reason => exact ⟨nofun, nofun⟩
  | ok content =>
    dsimp only
    rw [Except.ok.injEq, ← Utf8.fromUTF8?_eq_some_iff]
    cases String.fromUTF8? content <;> simp

/-- The reason why a file is no code is the one why it cannot be read, or that it is not UTF-8. -/
theorem text_file_eq_error_iff {u : Unreadable} :
    (CodeLocation.file path).text readFile = .error u ↔
      u.path = path ∧ (readFile path = .error u.reason ∨
        ∃ content, readFile path = .ok content ∧ (∀ text : String, content ≠ text.toUTF8) ∧
          u.reason = "stream did not contain valid UTF-8") := by
  obtain ⟨path', reason'⟩ := u
  unfold CodeLocation.text
  dsimp only
  cases readFile path with
  | error reason => simp [eq_comm]
  | ok content =>
    have undecoded :
        (∀ text : String, content ≠ text.toUTF8) ↔ String.fromUTF8? content = none := by
      simp only [Option.eq_none_iff_forall_ne_some, ne_eq, Utf8.fromUTF8?_eq_some_iff]
    simp only [Except.ok.injEq, reduceCtorEq, false_or, exists_eq_left', undecoded]
    cases String.fromUTF8? content <;> simp [eq_comm]

end CommandLine.CodeLocation

namespace CommandLine.Plan

/-- A program that is to run a file of its working directory runs the text of this file, or ends
with status 1 and the reason why there is none. -/
theorem perform_file {w : World} {d : WorkingDirectory} (hw : w.readFile = d.readFile)
    (program path : String) (memorySize : Option ℕ) (traced : Bool) (fuel : ℕ) :
    (∀ text : String, d.read path = .ok text.toUTF8 →
      (run ⟨.file path, memorySize, traced⟩).perform program w fuel =
        (run ⟨.words [text], memorySize, traced⟩).perform program w fuel) ∧
    ((∀ text : String, d.read path ≠ .ok text.toUTF8) →
      ∃ reason, (run ⟨.file path, memorySize, traced⟩).perform program w fuel =
          some ⟨1, "", Unreadable.message program ⟨path, reason⟩, .stream w.stdin⟩ ∧
        ((∃ r, d.read path = .error r ∧ reason = r.text) ∨
          reason = "stream did not contain valid UTF-8")) := by
  refine ⟨fun text hread => ?_, fun none => ?_⟩
  · have hfile : (CodeLocation.file path).text w.readFile = .ok text := by
      rw [hw, CodeLocation.text_file_eq_ok_iff, WorkingDirectory.readFile_eq_ok_iff, hread]
    have hwords : (CodeLocation.words [text]).text w.readFile = .ok text :=
      congrArg Except.ok (by simp : String.join [text] = text)
    simp only [perform, hfile, hwords]
  · cases htext : (CodeLocation.file path).text w.readFile with
    | ok text =>
      rw [hw, CodeLocation.text_file_eq_ok_iff, WorkingDirectory.readFile_eq_ok_iff] at htext
      exact absurd htext (none text)
    | error u =>
      obtain ⟨hpath, hreason⟩ := CodeLocation.text_file_eq_error_iff.1 htext
      subst hpath
      refine ⟨u.reason, by simp only [perform, htext], ?_⟩
      rcases hreason with hread | ⟨-, -, -, hreason⟩
      · rw [hw, WorkingDirectory.readFile_eq_error_iff] at hread
        obtain ⟨r, hread, htext⟩ := hread
        exact .inl ⟨r, hread, htext.symm⟩
      · exact .inr hreason

end CommandLine.Plan

end Brainfuck
