import WordMachine.Proofs.Literals
import WordMachine.Proofs.ReportContents
import WordMachine.Proofs.Schedule
import WordMachine.Proofs.WorldAccounts

/-!
# When a fixture passes

A fixture passes if it can be run, the run ends, and its result meets every expectation that
is stated.  If it can be run and the run does not end, nothing is found out about it, which
a step limit rules out.  Otherwise it fails for one reason, and which one that is, is said
by a relation that goes through the parts of a fixture in their order.  These are all the
cases there are, and the check tells the first from the last.  Of the accounts it matters
only that their keys spell addresses, and of the literals only what numbers they write.
-/

namespace WordMachine

/-! ## Expected stacks -/

namespace Literal

/-- The literals stand for the words, one for one. -/
def Denote (literals : List String) (words : List Word) : Prop :=
  List.Forall₂ (fun text w ↦ read text = .ok w) literals words

/-- The error is that of a literal with only good literals in front of it. -/
def FirstBad (literals : List String) (error : LiteralError) : Prop :=
  ∃ front bad back, literals = front ++ bad :: back ∧
    (∀ text ∈ front, ∃ w, read text = .ok w) ∧ read bad = .error error

/-- The text writes the number, with blanks around it or without. -/
def Writes (text : String) (n : ℕ) : Prop := Written (Text.trimmedChars text.toList) n

section

variable {text : String} {literals rest : List String} {words : List Word} {error : LiteralError}

theorem readAll_cons_of_ok {w : Word} (h : read text = .ok w) :
    readAll (text :: rest) = (readAll rest).map (w :: ·) := by
  rw [readAll, h]
  cases readAll rest <;> rfl

theorem readAll_cons_of_error (h : read text = .error error) :
    readAll (text :: rest) = .error error := by
  rw [readAll, h]
  rfl

theorem readAll_of_denote (h : Denote literals words) : readAll literals = .ok words := by
  induction h with
  | nil => rfl
  | cons hread _ ih =>
      rw [readAll_cons_of_ok hread, ih]
      rfl

theorem readAll_of_firstBad (h : FirstBad literals error) : readAll literals = .error error := by
  obtain ⟨front, bad, back, rfl, hfront, hbad⟩ := h
  induction front with
  | nil => exact readAll_cons_of_error hbad
  | cons text front ih =>
      obtain ⟨w, hread⟩ := hfront text List.mem_cons_self
      rw [List.cons_append, readAll_cons_of_ok hread,
        ih fun other hother ↦ hfront other (List.mem_cons_of_mem _ hother)]
      rfl

theorem denote_or_firstBad (literals : List String) :
    (∃ words, Denote literals words) ∨ ∃ error, FirstBad literals error := by
  induction literals with
  | nil => exact .inl ⟨[], .nil⟩
  | cons text rest ih =>
      cases hread : read text with
      | error error => exact .inr ⟨error, [], text, rest, rfl, nofun, hread⟩
      | ok w =>
          rcases ih with ⟨words, hwords⟩ | ⟨error, front, bad, back, rfl, hfront, hbad⟩
          · exact .inl ⟨w :: words, .cons hread hwords⟩
          · have hgood : ∀ other ∈ text :: front, ∃ w, read other = .ok w :=
              List.forall_mem_cons.mpr ⟨⟨w, hread⟩, hfront⟩
            exact .inr ⟨error, text :: front, bad, back, rfl, hgood, hbad⟩

/-- One literal may be exchanged for another that is read alike. -/
theorem readAll_exchange {old new : String} (h : read new = read old) (front back : List String) :
    readAll (front ++ new :: back) = readAll (front ++ old :: back) := by
  induction front with
  | nil =>
      rw [List.nil_append, List.nil_append, readAll, readAll, h]
  | cons text front ih => rw [List.cons_append, List.cons_append, readAll, readAll, ih]

theorem read_eq_of_writes {old new : String} {n : ℕ} (hold : Writes old n) (hnew : Writes new n) :
    read new = read old := by
  rw [read_of_written rfl hold, read_of_written rfl hnew]

end

end Literal

/-! ## Results -/

namespace Result

/-- Nothing that is expected is found otherwise. -/
structure Meets (r : Result) (expectation : Expectation) (stack : Option (List Word)) : Prop where
  success : ∀ expected, expectation.success = some expected → r.success = expected
  stack : ∀ expected, stack = some expected → r.stack = expected
  payload : ∀ expected, expectation.payload = some expected → r.payload = expected

/-- Success is compared first, then the stack, then the payload. -/
inductive DiffersFirst (r : Result) (expectation : Expectation) (stack : Option (List Word)) :
    Mismatch → Prop
  | success {expected : Bool} (h : expectation.success = some expected)
      (hother : r.success ≠ expected) :
      DiffersFirst r expectation stack (.success expected r.success r.status)
  | stack {expected : List Word}
      (hsuccess : ∀ expected, expectation.success = some expected → r.success = expected)
      (h : stack = some expected) (hother : r.stack ≠ expected) :
      DiffersFirst r expectation stack (.stack expected r.stack)
  | payload {expected : List UInt8}
      (hsuccess : ∀ expected, expectation.success = some expected → r.success = expected)
      (hstack : ∀ expected, stack = some expected → r.stack = expected)
      (h : expectation.payload = some expected) (hother : r.payload ≠ expected) :
      DiffersFirst r expectation stack (.payload expected r.payload)

section

variable {α : Type} [DecidableEq α] {o : Option α} {actual : α}

/-- A comparison is made only with what is expected. -/
theorem compare_of_forall (h : ∀ expected, o = some expected → actual = expected)
    (tell : α → Mismatch) :
    (o.bind fun expected ↦ if actual = expected then none else some (tell expected)) = none := by
  cases o with
  | none => rfl
  | some expected => exact if_pos (h expected rfl)

theorem compare_of_ne {expected : α} (h : o = some expected) (hother : actual ≠ expected)
    (tell : α → Mismatch) :
    (o.bind fun expected ↦ if actual = expected then none else some (tell expected)) =
      some (tell expected) := by
  subst h
  exact if_neg hother

theorem forall_or_exists_ne (o : Option α) (actual : α) :
    (∀ expected, o = some expected → actual = expected) ∨
      ∃ expected, o = some expected ∧ actual ≠ expected := by
  cases o with
  | none => exact .inl nofun
  | some expected =>
      by_cases h : actual = expected
      · exact .inl fun _ hsome ↦ h.trans (Option.some.inj hsome)
      · exact .inr ⟨expected, rfl, h⟩

end

variable {r : Result} {expectation : Expectation} {stack : Option (List Word)}

theorem mismatch?_of_meets (h : r.Meets expectation stack) :
    r.mismatch? expectation stack = none := by
  unfold mismatch?
  dsimp only
  rw [compare_of_forall h.success, compare_of_forall h.stack, compare_of_forall h.payload]
  rfl

theorem mismatch?_of_differsFirst {mismatch : Mismatch}
    (h : r.DiffersFirst expectation stack mismatch) :
    r.mismatch? expectation stack = some mismatch := by
  unfold mismatch?
  dsimp only
  cases h with
  | success h hother =>
      rw [compare_of_ne h hother]
      rfl
  | stack hsuccess h hother =>
      rw [compare_of_forall hsuccess, compare_of_ne h hother]
      rfl
  | payload hsuccess hstack h hother =>
      rw [compare_of_forall hsuccess, compare_of_forall hstack, compare_of_ne h hother]
      rfl

theorem meets_or_differsFirst (r : Result) (expectation : Expectation)
    (stack : Option (List Word)) :
    r.Meets expectation stack ∨ ∃ mismatch, r.DiffersFirst expectation stack mismatch := by
  rcases forall_or_exists_ne expectation.success r.success with hsuccess | ⟨expected, h, hother⟩
  · rcases forall_or_exists_ne stack r.stack with hstack | ⟨expected, h, hother⟩
    · rcases forall_or_exists_ne expectation.payload r.payload with hpayload | ⟨expected, h, hother⟩
      · exact .inl ⟨hsuccess, hstack, hpayload⟩
      · exact .inr ⟨_, .payload hsuccess hstack h hother⟩
    · exact .inr ⟨_, .stack hsuccess h hother⟩
  · exact .inr ⟨_, .success h hother⟩

end Result

/-! ## Fixtures -/

namespace Fixture

/-- The fixture can be run: it has bytecode, its accounts have addresses, and the stack that
it expects, if any, is one of words. -/
structure Ready (f : Fixture) (bytecode : List UInt8) (stack : Option (List Word)) : Prop where
  code : f.code.bytecode = some bytecode
  addressed : Addressed f.entries
  denoted : Option.Rel Literal.Denote f.expectation.stack stack

/-- The run ends with what is expected of it. -/
def Passes (f : Fixture) (limits : Limits) : Prop :=
  ∃ bytecode stack r, f.Ready bytecode stack ∧ Execution.Finishes bytecode.toArray limits r ∧
    r.Meets f.expectation stack

/-- The first trouble on the way through the fixture. -/
inductive FailsFirst (f : Fixture) (limits : Limits) : Trouble → Prop
  | noBytecode (h : f.code.bytecode = none) : FailsFirst f limits .noBytecode
  | address {bytecode : List UInt8} {trouble : Trouble} (hcode : f.code.bytecode = some bytecode)
      (h : FirstRejected f.entries trouble) : FailsFirst f limits trouble
  | literal {bytecode : List UInt8} {literals : List String} {error : LiteralError}
      (hcode : f.code.bytecode = some bytecode) (haddressed : Addressed f.entries)
      (hstack : f.expectation.stack = some literals) (h : Literal.FirstBad literals error) :
      FailsFirst f limits (.literal error)
  | mismatch {bytecode : List UInt8} {stack : Option (List Word)} {r : Result}
      {mismatch : Mismatch} (hready : f.Ready bytecode stack)
      (hfinishes : Execution.Finishes bytecode.toArray limits r)
      (h : r.DiffersFirst f.expectation stack mismatch) :
      FailsFirst f limits (.mismatch mismatch)

/-- The fixture can be run, but the run does not end, or not while its steps can be
counted. -/
def RunsOn (f : Fixture) (limits : Limits) : Prop :=
  ∃ bytecode stack, f.Ready bytecode stack ∧ ∀ r, ¬Execution.Finishes bytecode.toArray limits r

/-- The check comes to an end, with this outcome. -/
structure Returns (f : Fixture) (limits : Limits) (outcome : Except Trouble Unit) : Prop where
  ends : ¬f.RunsOn limits
  check_eq : f.check limits = outcome

section

variable {f : Fixture} {limits : Limits} {bytecode : List UInt8}

theorem check_of_addressed (hcode : f.code.bytecode = some bytecode)
    (haddressed : Addressed f.entries) :
    f.check limits = f.expectedStack >>= fun stack ↦
      match (run bytecode.toArray limits).mismatch? f.expectation stack with
      | none => .ok ()
      | some mismatch => .error (.mismatch mismatch) := by
  obtain ⟨environment, henvironment⟩ := exists_environment_iff.mpr haddressed
  rw [check, hcode]
  dsimp only
  rw [henvironment]
  rfl

theorem check_of_firstRejected {trouble : Trouble} (hcode : f.code.bytecode = some bytecode)
    (h : FirstRejected f.entries trouble) : f.check limits = .error trouble := by
  rw [check, hcode]
  dsimp only
  rw [environment_eq_error_iff.mpr h]
  rfl

theorem expectedStack_of_rel {stack : Option (List Word)}
    (h : Option.Rel Literal.Denote f.expectation.stack stack) : f.expectedStack = .ok stack := by
  unfold expectedStack
  generalize f.expectation.stack = literals at h
  cases h with
  | none => rfl
  | some h =>
      dsimp only
      rw [Literal.readAll_of_denote h]

theorem expectedStack_of_firstBad {literals : List String} {error : LiteralError}
    (hstack : f.expectation.stack = some literals) (h : Literal.FirstBad literals error) :
    f.expectedStack = .error (.literal error) := by
  rw [expectedStack, hstack]
  dsimp only
  rw [Literal.readAll_of_firstBad h]

theorem rel_or_firstBad (f : Fixture) :
    (∃ stack, Option.Rel Literal.Denote f.expectation.stack stack) ∨
      ∃ literals error, f.expectation.stack = some literals ∧ Literal.FirstBad literals error := by
  cases f.expectation.stack with
  | none => exact .inl ⟨none, .none⟩
  | some literals =>
      rcases Literal.denote_or_firstBad literals with ⟨words, hwords⟩ | ⟨error, hbad⟩
      · exact .inl ⟨some words, .some hwords⟩
      · exact .inr ⟨literals, error, rfl, hbad⟩

theorem expectedStack_eq_ok_iff {stack : Option (List Word)} :
    f.expectedStack = .ok stack ↔ Option.Rel Literal.Denote f.expectation.stack stack := by
  constructor
  · intro hstack
    rcases rel_or_firstBad f with ⟨other, hrel⟩ | ⟨literals, error, hliterals, hbad⟩
    · cases hstack.symm.trans (expectedStack_of_rel hrel)
      exact hrel
    · cases hstack.symm.trans (expectedStack_of_firstBad hliterals hbad)
  · exact expectedStack_of_rel

theorem Ready.check_eq {stack : Option (List Word)} {r : Result} (h : f.Ready bytecode stack)
    (hfinishes : Execution.Finishes bytecode.toArray limits r) :
    f.check limits =
      match r.mismatch? f.expectation stack with
      | none => .ok ()
      | some mismatch => .error (.mismatch mismatch) := by
  rw [check_of_addressed h.code h.addressed, expectedStack_of_rel h.denoted, hfinishes.run_eq]
  rfl

theorem Ready.not_runsOn {stack : Option (List Word)} {r : Result} (h : f.Ready bytecode stack)
    (hfinishes : Execution.Finishes bytecode.toArray limits r) : ¬f.RunsOn limits := by
  rintro ⟨other, _, hother, hnever⟩
  cases h.code.symm.trans hother.code
  exact hnever r hfinishes

theorem not_runsOn_of_not_ready (h : ∀ bytecode stack, ¬f.Ready bytecode stack) :
    ¬f.RunsOn limits := by
  rintro ⟨bytecode, stack, hready, -⟩
  exact h bytecode stack hready

theorem not_runsOn_of_limit {n : ℕ} (h : limits.steps = some n) : ¬f.RunsOn limits := by
  rintro ⟨bytecode, stack, -, hnever⟩
  exact hnever _ (Execution.finishes_of_limit bytecode.toArray h)

theorem Passes.returns (h : f.Passes limits) : f.Returns limits (.ok ()) := by
  obtain ⟨bytecode, stack, r, hready, hfinishes, hmeets⟩ := h
  refine ⟨hready.not_runsOn hfinishes, ?_⟩
  rw [hready.check_eq hfinishes, Result.mismatch?_of_meets hmeets]

theorem FailsFirst.returns {trouble : Trouble} (h : f.FailsFirst limits trouble) :
    f.Returns limits (.error trouble) := by
  cases h with
  | noBytecode h =>
      refine ⟨not_runsOn_of_not_ready ?_, check_of_none h limits⟩
      intro bytecode stack hready
      cases h.symm.trans hready.code
  | address hcode h =>
      refine ⟨not_runsOn_of_not_ready ?_, check_of_firstRejected hcode h⟩
      intro bytecode stack hready
      exact addressed_iff.mp hready.addressed _ h
  | literal hcode haddressed hstack h =>
      have hbad := expectedStack_of_firstBad hstack h
      refine ⟨not_runsOn_of_not_ready ?_, ?_⟩
      · intro bytecode stack hready
        cases hbad.symm.trans (expectedStack_of_rel hready.denoted)
      · rw [check_of_addressed hcode haddressed, hbad]
        rfl
  | mismatch hready hfinishes h =>
      refine ⟨hready.not_runsOn hfinishes, ?_⟩
      rw [hready.check_eq hfinishes, Result.mismatch?_of_differsFirst h]

theorem ready_or_failsFirst (f : Fixture) (limits : Limits) :
    (∃ bytecode stack, f.Ready bytecode stack) ∨ ∃ trouble, f.FailsFirst limits trouble := by
  cases hcode : f.code.bytecode with
  | none => exact .inr ⟨_, .noBytecode hcode⟩
  | some bytecode =>
      rcases addressed_or_firstRejected f.entries with haddressed | ⟨trouble, hfirst⟩
      · rcases rel_or_firstBad f with ⟨stack, hdenoted⟩ | ⟨literals, error, hstack, hbad⟩
        · exact .inl ⟨bytecode, stack, hcode, haddressed, hdenoted⟩
        · exact .inr ⟨_, .literal hcode haddressed hstack hbad⟩
      · exact .inr ⟨trouble, .address hcode hfirst⟩

/-- There is no fourth case. -/
theorem passes_or_failsFirst_or_runsOn (f : Fixture) (limits : Limits) :
    f.Passes limits ∨ (∃ trouble, f.FailsFirst limits trouble) ∨ f.RunsOn limits := by
  rcases ready_or_failsFirst f limits with ⟨bytecode, stack, hready⟩ | hfails
  · by_cases hends : ∃ r, Execution.Finishes bytecode.toArray limits r
    · obtain ⟨r, hfinishes⟩ := hends
      rcases Result.meets_or_differsFirst r f.expectation stack with hmeets | ⟨mismatch, hdiffers⟩
      · exact .inl ⟨bytecode, stack, r, hready, hfinishes, hmeets⟩
      · exact .inr (.inl ⟨_, .mismatch hready hfinishes hdiffers⟩)
    · exact .inr (.inr ⟨bytecode, stack, hready, not_exists.mp hends⟩)
  · exact .inr (.inl hfails)

theorem returns_ok_iff : f.Returns limits (.ok ()) ↔ f.Passes limits := by
  constructor
  · rintro ⟨hends, hcheck⟩
    rcases passes_or_failsFirst_or_runsOn f limits with hpasses | ⟨trouble, hfails⟩ | hruns
    · exact hpasses
    · cases hcheck.symm.trans hfails.returns.check_eq
    · exact absurd hruns hends
  · exact Passes.returns

theorem returns_error_iff {trouble : Trouble} :
    f.Returns limits (.error trouble) ↔ f.FailsFirst limits trouble := by
  constructor
  · rintro ⟨hends, hcheck⟩
    rcases passes_or_failsFirst_or_runsOn f limits with hpasses | ⟨other, hfails⟩ | hruns
    · cases hcheck.symm.trans hpasses.returns.check_eq
    · cases hcheck.symm.trans hfails.returns.check_eq
      exact hfails
    · exact absurd hruns hends
  · exact FailsFirst.returns

end

/-! ## What does not matter -/

/-- Either both fixtures run on or neither does, they pass or fail alike, for the same
reason, and are reported alike. -/
structure Alike (limits : Limits) (f g : Fixture) : Prop where
  runsOn_iff : g.RunsOn limits ↔ f.RunsOn limits
  check_eq : g.check limits = f.check limits
  verdict_eq : ∀ filter, g.verdict limits filter = f.verdict limits filter

/-- What a check goes by is the same.  Of the accounts that is the first key that spells no
address. -/
structure SameCase (f g : Fixture) : Prop where
  name_eq : g.name = f.name
  hint_eq : g.hint = f.hint
  code_eq : g.code = f.code
  rejected_iff : ∀ trouble, FirstRejected g.entries trouble ↔ FirstRejected f.entries trouble
  stack_eq : g.expectedStack = f.expectedStack
  success_eq : g.expectation.success = f.expectation.success
  payload_eq : g.expectation.payload = f.expectation.payload

namespace SameCase

variable {f g : Fixture} (h : SameCase f g)
include h

theorem addressed_iff : Addressed g.entries ↔ Addressed f.entries := by
  simp only [Fixture.addressed_iff, h.rejected_iff]

theorem ready_iff {bytecode : List UInt8} {stack : Option (List Word)} :
    g.Ready bytecode stack ↔ f.Ready bytecode stack := by
  have hdenoted : Option.Rel Literal.Denote g.expectation.stack stack ↔
      Option.Rel Literal.Denote f.expectation.stack stack := by
    rw [← expectedStack_eq_ok_iff, ← expectedStack_eq_ok_iff, h.stack_eq]
  constructor
  · rintro ⟨hcode, haddressed, hrel⟩
    exact ⟨h.code_eq ▸ hcode, h.addressed_iff.mp haddressed, hdenoted.mp hrel⟩
  · rintro ⟨hcode, haddressed, hrel⟩
    exact ⟨h.code_eq ▸ hcode, h.addressed_iff.mpr haddressed, hdenoted.mpr hrel⟩

theorem mismatch?_eq (r : Result) (stack : Option (List Word)) :
    r.mismatch? g.expectation stack = r.mismatch? f.expectation stack := by
  simp only [Result.mismatch?, h.success_eq, h.payload_eq]

theorem check_eq (limits : Limits) : g.check limits = f.check limits := by
  cases hf : f.code.bytecode with
  | none =>
      have hg : g.code.bytecode = none := by rw [h.code_eq, hf]
      rw [check_of_none hf, check_of_none hg]
  | some bytecode =>
      have hg : g.code.bytecode = some bytecode := by rw [h.code_eq, hf]
      rcases addressed_or_firstRejected f.entries with haddressed | ⟨trouble, hfirst⟩
      · have haddressed' := h.addressed_iff.mpr haddressed
        rw [check_of_addressed hf haddressed, check_of_addressed hg haddressed', h.stack_eq]
        simp only [h.mismatch?_eq]
      · rw [check_of_firstRejected hf hfirst,
          check_of_firstRejected hg ((h.rejected_iff trouble).mpr hfirst)]

theorem alike (limits : Limits) : Alike limits f g := by
  refine ⟨?_, h.check_eq limits, ?_⟩
  · simp only [RunsOn, h.ready_iff]
  · intro filter
    unfold verdict isSelected withHint
    rw [h.name_eq, h.hint_eq, h.check_eq limits]

end SameCase

section

variable {f : Fixture}

/-- One literal may be exchanged for another that writes the same number. -/
theorem sameCase_of_writes {front back : List String} {old new : String} {n : ℕ}
    (hstack : f.expectation.stack = some (front ++ old :: back)) (hold : Literal.Writes old n)
    (hnew : Literal.Writes new n) :
    SameCase f
      { f with expectation := { f.expectation with stack := some (front ++ new :: back) } } := by
  have hread := Literal.readAll_exchange (Literal.read_eq_of_writes hold hnew) front back
  refine ⟨rfl, rfl, rfl, fun _ ↦ Iff.rfl, ?_, rfl, rfl⟩
  rw [expectedStack, expectedStack, hstack]
  dsimp only
  rw [hread]

/-- The surroundings may be exchanged, as long as no address goes missing. -/
theorem sameCase_of_addressed (transaction : Option FixtureTransaction)
    (block : Option FixtureBlock) {state : Option (List (String × FixtureAccount))}
    (h : state = f.state ∨ (Addressed f.entries ∧ Addressed (state.getD []))) :
    SameCase f { f with transaction, block, state } := by
  refine ⟨rfl, rfl, rfl, ?_, rfl, rfl, rfl⟩
  intro trouble
  rcases h with rfl | ⟨hbefore, hafter⟩
  · exact Iff.rfl
  · exact iff_of_false (addressed_iff.mp hafter trouble) (addressed_iff.mp hbefore trouble)

end

/-- A check ends with success exactly if the fixture can be run and its run ends with what
is expected, and it ends with a trouble exactly if that is the first one; under a step limit
it always ends.  Another literal for the same number makes no difference, nor do other
surroundings, as long as the keys of the accounts stay the same or spell addresses before
and after. -/
theorem check_exact (f : Fixture) (limits : Limits) :
    (f.Returns limits (.ok ()) ↔ f.Passes limits) ∧
      (∀ trouble, f.Returns limits (.error trouble) ↔ f.FailsFirst limits trouble) ∧
      (∀ n, limits.steps = some n → ¬f.RunsOn limits) ∧
      (∀ front old new back n, f.expectation.stack = some (front ++ old :: back) →
        Literal.Writes old n → Literal.Writes new n →
        Alike limits f
          { f with expectation := { f.expectation with stack := some (front ++ new :: back) } }) ∧
      ∀ transaction block state,
        state = f.state ∨ (Addressed f.entries ∧ Addressed (state.getD [])) →
        Alike limits f { f with transaction, block, state } := by
  refine ⟨returns_ok_iff, fun _ ↦ returns_error_iff, fun _ ↦ not_runsOn_of_limit, ?_, ?_⟩
  · intro front old new back n hstack hold hnew
    exact (sameCase_of_writes hstack hold hnew).alike limits
  · intro transaction block state h
    exact (sameCase_of_addressed transaction block h).alike limits

/-- One and two are added, and three is expected. -/
def sum : Fixture :=
  { stating spellings with
    code := ⟨none, some [0x60, 0x01, 0x60, 0x02, 0x01]⟩
    expectation := ⟨some ["0x3"], some true, none⟩ }

theorem addressed_sum : Addressed sum.entries := fun entry hentry ↦
  ⟨spelt, spells_spelt entry hentry⟩

/-- A program that never ends is expected to fail. -/
def endless : Fixture :=
  { Fixture.blank with
    code := ⟨none, some Execution.spin.toList⟩
    expectation := ⟨none, some false, none⟩ }

theorem ready_endless : endless.Ready Execution.spin.toList none :=
  ⟨rfl, fun _ h ↦ absurd h List.not_mem_nil, .none⟩

/-- The sum passes, also with its literal in decimal digits, and without accounts.  A bad
literal counts before a wrong one.  What never ends passes only where a limit makes it
fail. -/
theorem check_exact_sum_endless :
    sum.Returns ⟨some 10, 64⟩ (.ok ()) ∧
      Alike ⟨some 10, 64⟩ sum { sum with expectation := ⟨some ["3"], some true, none⟩ } ∧
      Alike ⟨some 10, 64⟩ sum { sum with state := none } ∧
      ({ sum with expectation := ⟨some ["4", "-1"], some true, none⟩ } : Fixture).Returns
        ⟨some 10, 64⟩ (.error (.literal (.outOfRange .stackValueTooSmall))) ∧
      endless.Returns ⟨some 5, 0⟩ (.ok ()) ∧
      endless.RunsOn ⟨none, 0⟩ ∧ ¬endless.Passes ⟨none, 0⟩ := by
  obtain ⟨hpasses, -, -, hliteral, hsurroundings⟩ := check_exact sum ⟨some 10, 64⟩
  have hruns : endless.RunsOn ⟨none, 0⟩ := ⟨_, _, ready_endless,
    Execution.not_finishes_of_running Execution.spin_running⟩
  refine ⟨?_, ?_, ?_, ?_, ?_, hruns, ?_⟩
  · rw [hpasses]
    have hthree : Literal.read "0x3" = .ok 3#256 := by decide +kernel
    refine ⟨[0x60, 0x01, 0x60, 0x02, 0x01], some [3#256], _, ?_,
      Execution.finishes_of_limit _ rfl, ?_⟩
    · exact ⟨rfl, addressed_sum, .some (.cons hthree .nil)⟩
    · refine ⟨?_, ?_, nofun⟩
      · rintro _ ⟨⟩
        decide +kernel
      · rintro _ ⟨⟩
        decide +kernel
  · exact hliteral [] "0x3" "3" [] 3 rfl (.hexadecimal (by decide)) (.decimal (by decide))
  · exact hsurroundings none none none (.inr ⟨addressed_sum, nofun⟩)
  · have hgood : ∃ w, Literal.read "4" = .ok w := ⟨4#256, by decide +kernel⟩
    rw [(check_exact _ _).2.1]
    refine .literal rfl addressed_sum rfl ⟨["4"], "-1", [], rfl, ?_, by decide +kernel⟩
    intro text htext
    rw [List.mem_singleton.mp htext]
    exact hgood
  · rw [(check_exact _ _).1]
    refine ⟨_, _, _, ready_endless, Execution.finishes_of_limit _ rfl, ?_, nofun, nofun⟩
    rintro _ ⟨⟩
    decide +kernel
  · intro h
    exact ((check_exact endless ⟨none, 0⟩).1.mpr h).ends hruns

end Fixture

end WordMachine
