import Brainfuck.Proofs.Pairing

/-!
# The loops of a program

`Program.partner?` is the bracket matching of a program: it is defined at the brackets only, and
gives for each bracket the other one of its loop (`Program.Loop`).  The end of a loop can also be
found without the table, by `scanClosing`, which counts depth from the start of the loop on.
-/

namespace Brainfuck

/-- The index of the closing bracket that leaves a loop, found by a scan from index `ip` on that has
entered `depth` loops inside it. -/
def scanClosing : List Instruction → (depth ip : ℕ) → Option ℕ
  | [], _, _ => none
  | i :: is, depth, ip =>
    match i, depth with
    | .loopStart, _ => scanClosing is (depth + 1) (ip + 1)
    | .loopEnd, 0 => some ip
    | .loopEnd, depth + 1 => scanClosing is depth (ip + 1)
    | _, _ => scanClosing is depth (ip + 1)

/-- The scan passes over what is balanced. -/
theorem Balanced.scanClosing_append {is : List Instruction} (h : Balanced is)
    (after : List Instruction) (depth ip : ℕ) :
    scanClosing (is ++ after) depth ip = scanClosing after depth (ip + is.length) := by
  induction h generalizing after depth ip with
  | empty => rfl
  | simple a _ ih =>
    have step (js : List Instruction) :
        scanClosing (a :: js) depth ip = scanClosing js depth (ip + 1) := by
      cases a <;> rfl
    rw [List.cons_append, step, ih, List.length_cons]
    congr 1
    omega
  | @loop body rest _ _ ihBody ihRest =>
    rw [List.cons_append, List.append_assoc]
    change scanClosing (body ++ (.loopEnd :: rest ++ after)) (depth + 1) (ip + 1) = _
    rw [ihBody]
    change scanClosing (rest ++ after) depth (ip + 1 + body.length + 1) = _
    rw [ihRest]
    congr 1
    simp
    omega

/-- A scan from the start of a loop finds its end. -/
theorem Partners.scanClosing_eq {is : List Instruction} {s e : ℕ} (h : Partners is s e) :
    scanClosing (is.drop (s + 1)) 0 (s + 1) = some e := by
  obtain ⟨before, body, after, rfl, rfl, rfl, hbody⟩ := h.exists_split
  have hdrop : (before ++ .loopStart :: (body ++ .loopEnd :: after)).drop (before.length + 1) =
      body ++ .loopEnd :: after := by
    simp
  rw [hdrop, hbody.scanClosing_append]
  rfl

namespace Program

/-- The brackets at `s` and `e` are the start and the end of a loop, the table knows each of them as
the partner of the other, and counting depth from `s` on leads to `e`. -/
structure Loop (p : Program) (s e : ℕ) : Prop where
  partners : Partners p.instructions.toList s e
  forward : p.partner? s = some e
  backward : p.partner? e = some s
  scan : scanClosing (p.instructions.toList.drop (s + 1)) 0 (s + 1) = some e

/-- Every pair of brackets is a loop of the table. -/
theorem Parsed.loop {text : String} {p : Program} (h : Parsed text p) {s e : ℕ}
    (hp : Partners (instructionsOf text) s e) : p.Loop s e where
  partners := by rw [h.instructions]; exact hp
  forward := (h.partner?_eq_some_iff s e).2 (.inl hp)
  backward := (h.partner?_eq_some_iff e s).2 (.inr hp)
  scan := by rw [h.instructions]; exact hp.scanClosing_eq

/-- The table of a program pairs its brackets, and loops never cross. -/
theorem loops_of_parse {text : String} {p : Program} (h : parse text = .ok p) :
    (∀ i, p.get? i ≠ some .loopStart → p.get? i ≠ some .loopEnd → p.partner? i = none) ∧
    (∀ s, p.get? s = some .loopStart → ∃ e, p.Loop s e) ∧
    (∀ e, p.get? e = some .loopEnd → ∃ s, p.Loop s e) ∧
    (∀ s e s' e', p.Loop s e → p.Loop s' e' →
      (s = s' ∧ e = e') ∨ (s < s' ∧ e' < e) ∨ (s' < s ∧ e < e') ∨ e < s' ∨ e' < s) := by
  have parsed := parsed_of_parse h
  refine ⟨fun i hstart hend => ?_, fun s hs => ?_, fun e he => ?_, fun s e s' e' hl hl' => ?_⟩
  · rw [Option.eq_none_iff_forall_ne_some]
    intro j hj
    rw [parsed.get?_eq] at hstart hend
    rcases (parsed.partner?_eq_some_iff i j).1 hj with hp | hp
    · exact hstart hp.opening
    · exact hend hp.closing
  · rw [parsed.get?_eq] at hs
    obtain ⟨e, he | he⟩ := parsed.balanced.exists_paired (.inl rfl) hs
    · exact ⟨e, parsed.loop he⟩
    · exact absurd (hs.symm.trans he.closing) (by decide)
  · rw [parsed.get?_eq] at he
    obtain ⟨s, hs | hs⟩ := parsed.balanced.exists_paired (.inr rfl) he
    · exact absurd (he.symm.trans hs.opening) (by decide)
    · exact ⟨s, parsed.loop hs⟩
  · exact hl.partners.nested_or_disjoint hl'.partners

theorem loops_of_parse_nested :
    ∃ p, parse "[+[-]]" = .ok p ∧ p.Loop 0 5 ∧ p.Loop 2 4 := by
  have h : parse "[+[-]]" = .ok ⟨#[.loopStart, .increment, .loopStart, .decrement, .loopEnd,
      .loopEnd], #[some 5, none, some 4, none, some 2, some 0]⟩ := by
    decide +kernel
  obtain ⟨e, outer⟩ := (loops_of_parse h).2.1 0 rfl
  obtain ⟨e', inner⟩ := (loops_of_parse h).2.1 2 rfl
  obtain rfl : 5 = e := Option.some.inj outer.forward
  obtain rfl : 4 = e' := Option.some.inj inner.forward
  exact ⟨_, h, outer, inner⟩

end Program

end Brainfuck
