import Brainfuck.Program
import Brainfuck.Proofs.Nesting

/-!
# Pairing the brackets of a program

`Program.pair` reads the instructions from left to right.  Between two of them its stack holds
exactly the open brackets of what it has read (`Opened`) and its table the pairs of brackets in it
(`Tabulates`); `pair_spec` says what follows for its result.  A text is a program if and only if its
instructions are balanced, and otherwise `Fault` describes the error (`ofInstructions_spec`).
-/

namespace Brainfuck

/-! ## The table -/

/-- The table `partners` holds the pairs of brackets of `is` and nothing else. -/
def Tabulates (is : List Instruction) (partners : Array (Option ℕ)) : Prop :=
  ∀ i j, partners[i]?.join = some j ↔ Paired is i j

theorem tabulates_replicate (n : ℕ) : Tabulates [] (Array.replicate n none) := by
  intro i j
  have hnil : ¬ Paired [] i j := fun h => absurd h.lt_length (Nat.not_lt_zero i)
  rw [Array.getElem?_replicate]
  split <;> simpa using hnil

theorem Tabulates.append_of_ne {is : List Instruction} {partners : Array (Option ℕ)}
    (h : Tabulates is partners) {b : Instruction} (hb : b ≠ .loopEnd) :
    Tabulates (is ++ [b]) partners := fun i j =>
  (h i j).trans (paired_append_of_ne hb).symm

/-- The two entries for a closing bracket are new, and complete the table. -/
theorem Tabulates.close {is : List Instruction} {partners : Array (Option ℕ)} {s : ℕ}
    {outer : List ℕ} (h : Tabulates is partners) (opened : Opened is (s :: outer))
    (room : is.length < partners.size) :
    Tabulates (is ++ [.loopEnd])
      ((partners.setIfInBounds s (some is.length)).setIfInBounds is.length (some s)) := by
  intro i j
  have hs : s < is.length := opened.lt_length List.mem_cons_self
  have hfree : ∀ k, ¬ Paired is s k := fun k => opened.not_paired List.mem_cons_self
  have hlast : ∀ k, ¬ Paired is is.length k := fun k hk => absurd hk.lt_length (lt_irrefl _)
  rw [paired_append_loopEnd opened.close.2, Array.getElem?_setIfInBounds,
    Array.getElem?_setIfInBounds, Array.size_setIfInBounds]
  rcases eq_or_ne is.length i with rfl | hi
  · simp [room, hlast, hs.ne', eq_comm]
  · rcases eq_or_ne s i with rfl | hsi
    · simp [hi, hi.symm, hfree, hs.trans room, eq_comm]
    · simp [hi, hi.symm, hsi, hsi.symm, h i j]

/-! ## Faults -/

/-- What is wrong with a sequence that is not balanced. -/
inductive Fault (is : List Instruction) : ParseError → Prop where
  /-- A closing bracket comes after a balanced sequence. -/
  | closing {before after : List Instruction} : is = before ++ .loopEnd :: after →
      Balanced before → Fault is (.unmatched .closing before.length)
  /-- One loop is open at the end. -/
  | unclosed {ip : ℕ} : Opened is [ip] → Fault is (.unclosed ip)
  /-- Several loops are open at the end. -/
  | opening {ip next : ℕ} {outer : List ℕ} : Opened is (ip :: next :: outer) →
      Fault is (.unmatched .opening ip)

/-- A closing bracket after a balanced sequence ends the shortest prefix that closes too much. -/
theorem isLeast_excess_neg {before : List Instruction} (h : Balanced before)
    (after : List Instruction) :
    IsLeast {n | excess ((before ++ .loopEnd :: after).take n) < 0} (before.length + 1) := by
  constructor
  · have hz := h.excess_eq_zero
    have htake := take_split before .loopEnd after 0
    rw [Nat.add_zero, List.take_zero] at htake
    simp [htake, hz]
  · intro n hn
    by_contra hlt
    have hnonneg := h.excess_take_nonneg n
    rw [Set.mem_ofPred_eq, List.take_append_of_le_length (by omega)] at hn
    omega

theorem Fault.not_balanced {is : List Instruction} {e : ParseError} (h : Fault is e) :
    ¬ Balanced is := by
  intro hb
  cases h with
  | @closing before after his hbefore =>
    have hneg := (isLeast_excess_neg hbefore after).1
    have hnonneg := hb.excess_take_nonneg (before.length + 1)
    rw [Set.mem_ofPred_eq, ← his] at hneg
    omega
  | unclosed h | opening h =>
    have hz := hb.excess_eq_zero
    have hlen := h.excess_eq_length
    simp only [List.length_cons] at hlen
    omega

/-! ## The scan -/

namespace Program

theorem pair_simple (a : Simple) (is : List Instruction) (ip : ℕ) (opened : List ℕ)
    (partners : Array (Option ℕ)) :
    pair (a :: is) ip opened partners = pair is (ip + 1) opened partners := by
  cases a <;> rfl

/-- The scan from behind `before` on, with the open brackets and the pairs of `before`. -/
theorem pair_spec (is before : List Instruction) (stack : List ℕ) (partners : Array (Option ℕ))
    (opened : Opened before stack) (table : Tabulates before partners)
    (size : partners.size = before.length + is.length) :
    match pair is before.length stack partners with
    | .ok partners' => Balanced (before ++ is) ∧ Tabulates (before ++ is) partners'
    | .error e => Fault (before ++ is) e := by
  induction is generalizing before stack partners with
  | nil =>
    rw [List.append_nil]
    match stack, opened with
    | [], opened => exact ⟨opened.balanced_of_nil, table⟩
    | [_], opened => exact .unclosed opened
    | _ :: _ :: _, opened => exact .opening opened
  | cons i is ih =>
    rw [List.length_cons] at size
    have next (stack' : List ℕ) (partners' : Array (Option ℕ))
        (opened' : Opened (before ++ [i]) stack') (table' : Tabulates (before ++ [i]) partners')
        (size' : partners'.size = partners.size) :=
      ih (before ++ [i]) stack' partners' opened' table' (by simp; omega)
    simp only [List.append_assoc, List.singleton_append, List.length_append, List.length_cons,
      List.length_nil, Nat.zero_add] at next
    rcases i.simple_or_bracket with ⟨a, rfl⟩ | rfl | rfl
    · rw [pair_simple]
      exact next stack partners (opened.append_balanced (.simple a .empty))
        (table.append_of_ne a.toInstruction_ne_loopEnd) rfl
    · exact next (before.length :: stack) partners (.loopStart opened .empty)
        (table.append_of_ne (by decide)) rfl
    · match stack, opened with
      | [], opened => exact .closing rfl opened.balanced_of_nil
      | s :: outer, opened =>
        exact next outer _ opened.close.1 (table.close opened (by omega)) (by simp)

/-- What a sequence of instructions is read as. -/
theorem ofInstructions_spec (is : List Instruction) :
    match ofInstructions is with
    | .ok p => Balanced is ∧ p.instructions = is.toArray ∧ Tabulates is p.partners
    | .error e => Fault is e := by
  have h := pair_spec is [] [] (Array.replicate is.length none) (.balanced .empty)
    (tabulates_replicate is.length) (by simp)
  rw [List.nil_append, List.length_nil] at h
  unfold ofInstructions
  cases hp : pair is 0 [] (Array.replicate is.length none) with
  | ok partners =>
    rw [hp] at h
    exact ⟨h.1, rfl, h.2⟩
  | error e =>
    rw [hp] at h
    exact h

theorem lt_size_of_get? {p : Program} {ip : ℕ} {i : Instruction} (h : p.get? ip = some i) :
    ip < p.size :=
  (Array.getElem?_eq_some_iff.1 h).1

/-- What the reader of programs makes of a text that is one. -/
structure Parsed (text : String) (p : Program) : Prop where
  instructions : p.instructions = (instructionsOf text).toArray
  balanced : Balanced (instructionsOf text)
  partner?_eq_some_iff : ∀ i j, p.partner? i = some j ↔ Paired (instructionsOf text) i j

theorem parsed_of_parse {text : String} {p : Program} (h : parse text = .ok p) :
    Parsed text p := by
  have spec := ofInstructions_spec (instructionsOf text)
  rw [show ofInstructions (instructionsOf text) = .ok p from h] at spec
  exact ⟨spec.2.1, spec.1, spec.2.2⟩

theorem fault_of_parse {text : String} {e : ParseError} (h : parse text = .error e) :
    Fault (instructionsOf text) e := by
  have spec := ofInstructions_spec (instructionsOf text)
  rw [show ofInstructions (instructionsOf text) = .error e from h] at spec
  exact spec

theorem exists_parse_of_balanced {text : String} (h : Balanced (instructionsOf text)) :
    ∃ p, parse text = .ok p := by
  cases hp : parse text with
  | ok p => exact ⟨p, rfl⟩
  | error e => exact absurd h (fault_of_parse hp).not_balanced

namespace Parsed

variable {text : String} {p : Program} {ip j : ℕ} {i : Instruction}

theorem get?_eq (h : Parsed text p) (ip : ℕ) : p.get? ip = (instructionsOf text)[ip]? := by
  rw [get?, h.instructions, List.getElem?_toArray]

theorem size_eq (h : Parsed text p) : p.size = (instructionsOf text).length := by
  rw [size, h.instructions, List.size_toArray]

theorem partner_lt (h : Parsed text p) (hj : p.partner? ip = some j) : j < p.size := by
  rw [h.size_eq]
  exact ((h.partner?_eq_some_iff ip j).1 hj).symm.lt_length

theorem exists_partner (h : Parsed text p) (hi : p.get? ip = some i)
    (bracket : i = .loopStart ∨ i = .loopEnd) : ∃ j, p.partner? ip = some j := by
  rw [h.get?_eq] at hi
  obtain ⟨j, hj⟩ := h.balanced.exists_paired bracket hi
  exact ⟨j, (h.partner?_eq_some_iff ip j).2 hj⟩

end Parsed

/-- The texts that are programs, and the error for every other one.  If some prefix of the
instructions closes more loops than it opens, the error is the closing bracket at the end of the
shortest such prefix.  If none does, some loops are never closed, and the error is the start of the
only one or the last start of several. -/
theorem parse_classification (text : String) :
    let is := instructionsOf text
    ((∃ p, parse text = .ok p) ↔ Balanced is) ∧
    (¬ Balanced is →
      ((∃ n, excess (is.take n) < 0) →
        ∃ ip, IsLeast {n | excess (is.take n) < 0} (ip + 1) ∧ is[ip]? = some .loopEnd ∧
          parse text = .error (.unmatched .closing ip)) ∧
      ((∀ n, 0 ≤ excess (is.take n)) →
        1 ≤ excess is ∧
        (excess is = 1 →
          ∃ ip, unclosed is = {ip} ∧ parse text = .error (.unclosed ip)) ∧
        (2 ≤ excess is →
          ∃ ip, IsGreatest (unclosed is) ip ∧
            parse text = .error (.unmatched .opening ip)))) := by
  intro is
  cases hparse : parse text with
  | ok p =>
    have balanced := (parsed_of_parse hparse).balanced
    exact ⟨⟨fun _ => balanced, fun _ => ⟨p, rfl⟩⟩, fun hnot => absurd balanced hnot⟩
  | error e =>
    have fault := fault_of_parse hparse
    refine ⟨⟨nofun, fun hb => absurd hb fault.not_balanced⟩, fun _ => ?_⟩
    cases fault with
    | @closing before after his hbefore =>
      have least := isLeast_excess_neg hbefore after
      rw [← his] at least
      refine ⟨fun _ => ⟨before.length, least, ?_, rfl⟩, fun hnonneg => ?_⟩
      · change (instructionsOf text)[before.length]? = _
        rw [his, List.getElem?_append_right le_rfl, Nat.sub_self]
        rfl
      · exact absurd least.1 (not_lt.2 (hnonneg _))
    | @unclosed ip opened =>
      have hone : excess is = 1 := opened.excess_eq_length
      refine ⟨fun ⟨n, hn⟩ => absurd hn (not_lt.2 (opened.excess_take_nonneg n)), fun _ => ?_⟩
      exact ⟨hone.ge, fun _ => ⟨ip, opened.unclosed_eq_singleton, rfl⟩, fun htwo => by omega⟩
    | @opening ip next outer opened =>
      have hlen : excess is = outer.length + 2 := opened.excess_eq_length
      refine ⟨fun ⟨n, hn⟩ => absurd hn (not_lt.2 (opened.excess_take_nonneg n)), fun _ => ?_⟩
      exact ⟨by omega, fun hone => by omega, fun _ => ⟨ip, opened.isGreatest_unclosed, rfl⟩⟩

end Program

end Brainfuck
