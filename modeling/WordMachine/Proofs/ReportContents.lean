import WordMachine.Fixture.Report

/-!
# The contents of reports

A report sorts the fixtures of a list by their verdicts and leaves none out.  That a
fixture without bytecode is skipped rests on a fact about `Fixture.check`: no other
part of a fixture is found to be missing in this way.  A verdict is that of a run that
ends, as every run does under a step limit; a list with a fixture that runs for ever
has no report.
-/

namespace WordMachine

namespace Text

theorem contains_iff {part text : List Char} : contains part text = true ↔ part <:+: text := by
  induction text with
  | nil => rw [contains, List.isEmpty_iff, List.infix_nil]
  | cons c text ih =>
      rw [contains, Bool.or_eq_true, List.isPrefixOf_iff_prefix, ih, List.infix_cons_iff]

end Text

namespace Fixture

/-! ## Want of bytecode -/

/-- The computation does not fail for want of bytecode. -/
def Supported {α : Type} (r : Except Trouble α) : Prop := r ≠ .error .noBytecode

theorem Supported.bind {α β : Type} {r : Except Trouble α} {next : α → Except Trouble β}
    (hr : Supported r) (hnext : ∀ a, Supported (next a)) : Supported (r >>= next) := by
  cases r with
  | error trouble =>
      intro h
      cases h
      exact hr rfl
  | ok a => exact hnext a

theorem supported_readAddress (key : String) : Supported (readAddress key) := by
  unfold readAddress
  split
  · exact nofun
  · split
    · exact nofun
    · exact nofun

theorem supported_addAccounts (w : World) (accounts : List (String × FixtureAccount)) :
    Supported (addAccounts w accounts) := by
  induction accounts generalizing w with
  | nil => exact nofun
  | cons entry rest ih =>
      rw [addAccounts]
      apply (supported_readAddress entry.1).bind
      intro address
      exact ih _

theorem supported_environment (f : Fixture) : Supported f.environment := by
  apply (supported_addAccounts World.empty _).bind
  intro world
  exact nofun

theorem supported_expectedStack (f : Fixture) : Supported f.expectedStack := by
  unfold expectedStack
  split
  · exact nofun
  · split
    · exact nofun
    · exact nofun

theorem check_of_none {f : Fixture} (h : f.code.bytecode = none) (limits : Limits) :
    f.check limits = .error .noBytecode := by
  rw [check, h]

theorem supported_check {f : Fixture} {bytecode : List UInt8}
    (h : f.code.bytecode = some bytecode) (limits : Limits) : Supported (f.check limits) := by
  rw [check, h]
  apply f.supported_environment.bind
  intro environment
  apply f.supported_expectedStack.bind
  intro stack
  split
  · exact nofun
  · exact nofun

theorem check_eq_noBytecode_iff {f : Fixture} {limits : Limits} :
    f.check limits = .error .noBytecode ↔ f.code.bytecode = none := by
  constructor
  · intro hcheck
    cases hcode : f.code.bytecode with
    | none => rfl
    | some bytecode => exact absurd hcheck (supported_check hcode limits)
  · intro hcode
    exact check_of_none hcode limits

/-! ## Verdicts -/

/-- The name has the text in it that was asked for, if one was. -/
def Asked (f : Fixture) (filter : Option String) : Prop :=
  ∀ part, filter = some part → part.toList <:+: f.name.toList

/-- Neither the name nor the want of bytecode keeps the fixture from being run. -/
def Eligible (f : Fixture) (filter : Option String) : Prop :=
  f.Asked filter ∧ f.code.bytecode ≠ none

/-- The reason tells the trouble, and the fixture's hint if it has one. -/
inductive Explains (f : Fixture) (trouble : Trouble) : String → Prop
  | plain (h : f.hint = none) : Explains f trouble trouble.message
  | hinted {hint : String} (h : f.hint = some hint) :
      Explains f trouble (trouble.message ++ " (hint: " ++ hint ++ ")")

variable {f : Fixture} {limits : Limits} {filter : Option String}

theorem explains_iff {trouble : Trouble} {reason : String} :
    f.Explains trouble reason ↔ reason = f.withHint trouble.message := by
  constructor
  · intro h
    cases h with
    | plain h => rw [withHint, h]
    | hinted h => rw [withHint, h]
  · rintro rfl
    unfold withHint
    split
    · exact .hinted ‹_›
    · exact .plain ‹_›

theorem isSelected_iff : f.isSelected filter = true ↔ f.Asked filter := by
  cases filter with
  | none =>
      constructor
      · intro _ part hpart
        cases hpart
      · intro _
        rfl
  | some part =>
      rw [isSelected, Text.contains_iff]
      constructor
      · rintro h _ ⟨⟩
        exact h
      · intro h
        exact h part rfl

theorem not_eligible_iff :
    ¬f.Eligible filter ↔ ¬f.Asked filter ∨ f.code.bytecode = none := by
  constructor
  · intro h
    by_cases hcode : f.code.bytecode = none
    · exact .inr hcode
    · exact .inl fun hasked ↦ h ⟨hasked, hcode⟩
  · rintro (hasked | hcode) h
    · exact hasked h.1
    · exact h.2 hcode

theorem verdict_of_not_eligible (h : ¬f.Eligible filter) :
    f.verdict limits filter = .skipped := by
  rcases not_eligible_iff.mp h with hasked | hcode
  · rw [verdict, if_neg]
    intro hselected
    exact hasked (isSelected_iff.mp hselected)
  · rw [verdict, check_of_none hcode]
    split
    · rfl
    · rfl

theorem verdict_of_ok (h : f.Eligible filter) (hcheck : f.check limits = .ok ()) :
    f.verdict limits filter = .passed := by
  rw [verdict, if_pos (isSelected_iff.mpr h.1), hcheck]

theorem verdict_of_error (h : f.Eligible filter) {trouble : Trouble}
    (hcheck : f.check limits = .error trouble) :
    f.verdict limits filter = .failed (f.withHint trouble.message) := by
  rw [verdict, if_pos (isSelected_iff.mpr h.1), hcheck]
  cases trouble with
  | noBytecode => exact absurd (check_eq_noBytecode_iff.mp hcheck) h.2
  | _ => rfl

/-- Every fixture is in one of three cases, and its case decides the verdict. -/
theorem verdict_cases (f : Fixture) (limits : Limits) (filter : Option String) :
    (¬f.Eligible filter ∧ f.verdict limits filter = .skipped) ∨
      (f.Eligible filter ∧ f.check limits = .ok () ∧ f.verdict limits filter = .passed) ∨
      ∃ trouble, f.Eligible filter ∧ f.check limits = .error trouble ∧
        f.verdict limits filter = .failed (f.withHint trouble.message) := by
  by_cases heligible : f.Eligible filter
  · right
    cases hcheck : f.check limits with
    | ok => exact .inl ⟨heligible, rfl, verdict_of_ok heligible hcheck⟩
    | error trouble => exact .inr ⟨trouble, heligible, rfl, verdict_of_error heligible hcheck⟩
  · exact .inl ⟨heligible, verdict_of_not_eligible heligible⟩

theorem verdict_eq_skipped_iff : f.verdict limits filter = .skipped ↔ ¬f.Eligible filter := by
  constructor
  · intro hverdict heligible
    rcases f.verdict_cases limits filter with ⟨hnot, -⟩ | ⟨-, -, h⟩ | ⟨_, -, -, h⟩
    · exact hnot heligible
    · cases hverdict.symm.trans h
    · cases hverdict.symm.trans h
  · exact verdict_of_not_eligible

theorem verdict_eq_passed_iff :
    f.verdict limits filter = .passed ↔ f.Eligible filter ∧ f.check limits = .ok () := by
  constructor
  · intro hverdict
    rcases f.verdict_cases limits filter with ⟨-, h⟩ | ⟨heligible, hcheck, -⟩ | ⟨_, -, -, h⟩
    · cases hverdict.symm.trans h
    · exact ⟨heligible, hcheck⟩
    · cases hverdict.symm.trans h
  · rintro ⟨heligible, hcheck⟩
    exact verdict_of_ok heligible hcheck

theorem verdict_eq_failed_iff {reason : String} :
    f.verdict limits filter = .failed reason ↔
      f.Eligible filter ∧ ∃ trouble, f.check limits = .error trouble ∧
        f.Explains trouble reason := by
  constructor
  · intro hverdict
    rcases f.verdict_cases limits filter with ⟨-, h⟩ | ⟨-, -, h⟩ | ⟨trouble, heligible, hcheck, h⟩
    · cases hverdict.symm.trans h
    · cases hverdict.symm.trans h
    · cases hverdict.symm.trans h
      exact ⟨heligible, trouble, hcheck, explains_iff.mpr rfl⟩
  · rintro ⟨heligible, trouble, hcheck, hexplains⟩
    rw [verdict_of_error heligible hcheck, explains_iff.mp hexplains]

theorem verdict_some (part : String) :
    f.verdict limits (some part) =
      if Text.contains part.toList f.name.toList then f.verdict limits none else .skipped := rfl

end Fixture

/-! ## Buckets -/

namespace Verdict

def reason? : Verdict → Option String
  | failed reason => some reason
  | _ => none

end Verdict

namespace Report

def append (r s : Report) : Report :=
  ⟨r.passed ++ s.passed, r.failed ++ s.failed, r.skipped ++ s.skipped⟩

/-- The fixtures of a list by their verdicts. -/
def buckets (verdict : Fixture → Verdict) (fixtures : List Fixture) : Report where
  passed := (fixtures.filter fun f ↦ verdict f = .passed).map (·.name)
  failed := fixtures.filterMap fun f ↦ (verdict f).reason?.map (Failure.mk f.name)
  skipped := (fixtures.filter fun f ↦ verdict f = .skipped).map (·.name)

variable {verdict : Fixture → Verdict}

theorem buckets_cons (f : Fixture) (fixtures : List Fixture) :
    buckets verdict (f :: fixtures) = cons f.name (verdict f) (buckets verdict fixtures) := by
  cases h : verdict f with
  | passed => simp [buckets, cons, Verdict.reason?, h]
  | failed reason => simp [buckets, cons, Verdict.reason?, h]
  | skipped => simp [buckets, cons, Verdict.reason?, h]

theorem ofFixtures_eq_buckets (limits : Limits) (filter : Option String)
    (fixtures : List Fixture) :
    ofFixtures limits filter fixtures = buckets (·.verdict limits filter) fixtures := by
  induction fixtures with
  | nil => rfl
  | cons f fixtures ih =>
      rw [buckets_cons, ← ih]
      rfl

theorem buckets_append (xs ys : List Fixture) :
    buckets verdict (xs ++ ys) = append (buckets verdict xs) (buckets verdict ys) := by
  simp only [buckets, append, List.filter_append, List.map_append, List.filterMap_append]

theorem length_buckets (fixtures : List Fixture) :
    (buckets verdict fixtures).passed.length + (buckets verdict fixtures).failed.length +
      (buckets verdict fixtures).skipped.length = fixtures.length := by
  induction fixtures with
  | nil => rfl
  | cons f fixtures ih =>
      rw [buckets_cons, List.length_cons, ← ih]
      cases verdict f with
      | passed => simp only [cons, List.length_cons]; omega
      | failed reason => simp only [cons, List.length_cons]; omega
      | skipped => simp only [cons, List.length_cons]; omega

/-- Skipping by name takes the same fixtures out of the report. -/
theorem buckets_restrict (keep : String → Bool) (fixtures : List Fixture) :
    (buckets (fun f ↦ if keep f.name then verdict f else .skipped) fixtures).passed =
        (buckets verdict fixtures).passed.filter keep ∧
      (buckets (fun f ↦ if keep f.name then verdict f else .skipped) fixtures).failed =
        (buckets verdict fixtures).failed.filter (keep ·.name) := by
  induction fixtures with
  | nil => exact ⟨rfl, rfl⟩
  | cons f fixtures ih =>
      obtain ⟨hpassed, hfailed⟩ := ih
      rw [buckets_cons, buckets_cons]
      cases hkeep : keep f.name with
      | false =>
          cases verdict f with
          | passed => simp [cons, hkeep, hpassed, hfailed]
          | failed reason => simp [cons, hkeep, hpassed, hfailed]
          | skipped => simp [cons, hpassed, hfailed]
      | true =>
          cases verdict f with
          | passed => simp [cons, hkeep, hpassed, hfailed]
          | failed reason => simp [cons, hkeep, hpassed, hfailed]
          | skipped => simp [cons, hpassed, hfailed]

/-- Every fixture is counted once, in its place, under the verdict that its name, its
bytecode and its check give it.  Lists can be joined before or after, and a name
can be asked for before or after.  The verdicts are those of runs that end: what is
given for an eligible fixture that runs for ever is no verdict, and its list is never
reported on. -/
theorem ofFixtures_sorts (limits : Limits) (filter : Option String) (fixtures : List Fixture) :
    (ofFixtures limits filter fixtures = buckets (·.verdict limits filter) fixtures ∧
        ∀ f : Fixture,
          (f.verdict limits filter = .skipped ↔
            ¬f.Asked filter ∨ f.code.bytecode = none) ∧
          (f.verdict limits filter = .passed ↔
            f.Eligible filter ∧ f.check limits = .ok ()) ∧
          ∀ reason, f.verdict limits filter = .failed reason ↔
            f.Eligible filter ∧ ∃ trouble, f.check limits = .error trouble ∧
              f.Explains trouble reason) ∧
      (ofFixtures limits filter fixtures).passed.length +
          (ofFixtures limits filter fixtures).failed.length +
          (ofFixtures limits filter fixtures).skipped.length = fixtures.length ∧
      (∀ more, ofFixtures limits filter (fixtures ++ more) =
        append (ofFixtures limits filter fixtures) (ofFixtures limits filter more)) ∧
      ∀ part : String,
        (∀ name : String, Text.contains part.toList name.toList = true ↔
          part.toList <:+: name.toList) ∧
        (ofFixtures limits (some part) fixtures).passed =
          (ofFixtures limits none fixtures).passed.filter
            (fun name ↦ Text.contains part.toList name.toList) ∧
        (ofFixtures limits (some part) fixtures).failed =
          (ofFixtures limits none fixtures).failed.filter
            (fun failure ↦ Text.contains part.toList failure.name.toList) := by
  refine ⟨⟨ofFixtures_eq_buckets limits filter fixtures, ?_⟩, ?_, ?_, ?_⟩
  · intro f
    refine ⟨?_, Fixture.verdict_eq_passed_iff, fun _ ↦ Fixture.verdict_eq_failed_iff⟩
    rw [Fixture.verdict_eq_skipped_iff, Fixture.not_eligible_iff]
  · rw [ofFixtures_eq_buckets]
    exact length_buckets fixtures
  · intro more
    simp only [ofFixtures_eq_buckets]
    exact buckets_append fixtures more
  · intro part
    simp only [ofFixtures_eq_buckets, Fixture.verdict_some]
    refine ⟨fun _ ↦ Text.contains_iff, ?_⟩
    exact buckets_restrict (fun name ↦ Text.contains part.toList name.toList) fixtures

/-- Two sums, of which one is wrong, and a sum without bytecode. -/
def sumFixtures : List Fixture :=
  [{ Fixture.blank with
      name := "sum", code := ⟨none, some [0x60, 0x01, 0x60, 0x02, 0x01]⟩
      expectation := ⟨some ["0x3"], some true, none⟩ },
    { Fixture.blank with
      name := "sum of twos", hint := some "four", code := ⟨none, some [0x60, 0x02, 0x60, 0x02]⟩
      expectation := ⟨none, some false, none⟩ },
    { Fixture.blank with name := "sum of threes", code := ⟨some "ADD", none⟩ }]

example : ofFixtures ⟨some 10, 64⟩ (some "sum of") sumFixtures =
    ⟨[], [⟨"sum of twos", "Assertion failed: success mismatch: expected false, got true (success)" ++
      " (hint: four)"⟩], ["sum", "sum of threes"]⟩ := by
  decide +kernel

end Report

end WordMachine
