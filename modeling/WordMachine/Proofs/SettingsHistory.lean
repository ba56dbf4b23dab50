import WordMachine.Command.Session
import WordMachine.Proofs.SettingsText

/-!
# The history of settings

The settings after any number of calls are those from before with the values that
were asked for by the calls that succeeded, one after the other.  A call can do two
things to a session: leave it as it was, or store the text of the changed settings,
which is read back as these settings.
-/

namespace WordMachine

/-- New values for some of the settings. -/
structure SettingsChange where
  stepLimit : Option Nat
  logLevel : Option String
deriving DecidableEq, Repr

namespace SettingsChange

def none : SettingsChange := ⟨.none, .none⟩

def apply (change : SettingsChange) (s : Settings) : Settings :=
  ⟨change.stepLimit.getD s.stepLimit, s.memoryLimit, change.logLevel.getD s.logLevel⟩

/-- The values can be stored: the log level is a filter, and the limit can be written. -/
def Acceptable (change : SettingsChange) : Prop :=
  (∀ level, change.logLevel = some level → LogFilter.problem? level = .none) ∧
    ∀ limit, change.stepLimit = some limit → limit < Settings.numberBound

theorem none_apply (s : Settings) : none.apply s = s := rfl

end SettingsChange

namespace Command

/-- What a command asks to be stored.  The limit of a run is not stored. -/
def change : Command → SettingsChange
  | configure _ stepLimit logLevel => ⟨stepLimit, logLevel⟩
  | _ => .none

end Command

namespace Settings

theorem update_eq_ok_iff {s updated : Settings} {change : SettingsChange} :
    s.update change.stepLimit change.logLevel = .ok updated ↔
      updated = change.apply s ∧
        ∀ level, change.logLevel = some level → LogFilter.problem? level = none := by
  unfold update SettingsChange.apply
  cases change.logLevel with
  | none => simp [eq_comm]
  | some level =>
      cases hproblem : LogFilter.problem? level with
      | none => simp [hproblem, eq_comm]
      | some problem => simp [hproblem]

theorem exists_store?_apply_iff {text : Option String} {change : SettingsChange} :
    (∃ stored, (change.apply (load text)).store? = some stored) ↔
      ∀ limit, change.stepLimit = some limit → limit < numberBound := by
  obtain ⟨hstep, hmemory⟩ := load_lt text
  unfold store? SettingsChange.apply
  cases change.stepLimit with
  | none => simp [hstep, hmemory]
  | some limit => simp [hmemory]

end Settings

namespace SettingsChange

theorem ne_none_iff {change : SettingsChange} :
    change ≠ none ↔ change.stepLimit.isSome ∨ change.logLevel.isSome := by
  obtain ⟨stepLimit, logLevel⟩ := change
  cases stepLimit <;> cases logLevel <;> simp [none]

theorem acceptable_none : Acceptable none := ⟨nofun, nofun⟩

end SettingsChange

namespace Session

/-! ## One call -/

variable {s : Session} {json display : Bool} {change : SettingsChange}

/-- What can come of a call that asks for a change: it had nothing to ask for, it
failed, or the text of the changed settings is stored. -/
inductive Heeds (s : Session) (change : SettingsChange) (result : Response × Session) : Prop where
  | idle (hchange : change = .none) (hkept : result.2 = s)
  | refused (hexit : result.1.exit ≠ 0) (hkept : result.2 = s)
  | stored {text : String} (hexit : result.1.exit = 0) (hchange : change ≠ .none)
      (htext : (change.apply s.settings).store? = some text)
      (hafter : result.2 = { s with stored := some text })

theorem heeds_configure_of_ne_none (hchange : change ≠ .none) :
    Heeds s change (s.configure json display change.stepLimit change.logLevel) ∧
      ((s.configure json display change.stepLimit change.logLevel).1.exit = 0 ↔
        change.Acceptable) := by
  rw [configure, if_pos (SettingsChange.ne_none_iff.mp hchange)]
  cases hupdate : s.settings.update change.stepLimit change.logLevel with
  | error error =>
      have hexit := Response.exit_failure_ne_zero json error
      refine ⟨.refused hexit rfl, fun h ↦ absurd h hexit, fun hacceptable ↦ ?_⟩
      rw [Settings.update_eq_ok_iff.mpr ⟨rfl, hacceptable.1⟩] at hupdate
      cases hupdate
  | ok updated =>
      obtain ⟨rfl, hvalid⟩ := Settings.update_eq_ok_iff.mp hupdate
      dsimp only
      cases hstore : (change.apply s.settings).store? with
      | none =>
          have hexit := Response.exit_failure_ne_zero json .notStorable
          refine ⟨.refused hexit rfl, fun h ↦ absurd h hexit, fun hacceptable ↦ ?_⟩
          obtain ⟨text, htext⟩ := Settings.exists_store?_apply_iff.mpr hacceptable.2
          cases hstore.symm.trans htext
      | some text =>
          refine ⟨.stored rfl hchange hstore rfl, fun _ ↦ ⟨hvalid, ?_⟩, fun _ ↦ rfl⟩
          exact Settings.exists_store?_apply_iff.mp ⟨text, hstore⟩

theorem configure_none (s : Session) (json display : Bool) :
    (s.configure json display none none).1.exit = 0 ∧
      (s.configure json display none none).2 = s := by
  rw [configure, if_neg (by simp)]
  split
  · exact ⟨rfl, rfl⟩
  · exact ⟨rfl, rfl⟩

theorem heeds_configure (s : Session) (json display : Bool) (change : SettingsChange) :
    Heeds s change (s.configure json display change.stepLimit change.logLevel) ∧
      ((s.configure json display change.stepLimit change.logLevel).1.exit = 0 ↔
        change.Acceptable) := by
  by_cases hchange : change = .none
  · subst hchange
    obtain ⟨hexit, hkept⟩ := configure_none s json display
    exact ⟨.idle rfl hkept, fun _ ↦ SettingsChange.acceptable_none, fun _ ↦ hexit⟩
  · exact heeds_configure_of_ne_none hchange

theorem heeds_obey (s : Session) (json : Bool) (command : Command) :
    Heeds s command.change (s.obey json command) := by
  cases command with
  | run code stepLimit => exact .idle rfl rfl
  | fixtures path filter verbose => exact .idle rfl rfl
  | disassemble code => exact .idle rfl rfl
  | configure display stepLimit logLevel =>
      exact (heeds_configure s json display ⟨stepLimit, logLevel⟩).1

/-- The lines about the log filter change neither the exit code nor the session. -/
theorem perform_of_ignored {invocation : Invocation} {ignored : List (String × LogFilter.Problem)}
    (h : LogFilter.ignored? (invocation.logLevel.getD s.settings.logLevel) = some ignored) :
    (s.perform invocation).1.exit = (s.obey invocation.json invocation.command).1.exit ∧
      (s.perform invocation).2 = (s.obey invocation.json invocation.command).2 := by
  rw [perform, h]
  exact ⟨rfl, rfl⟩

theorem heeds_perform (s : Session) (invocation : Invocation) :
    Heeds s invocation.command.change (s.perform invocation) := by
  cases hignored : LogFilter.ignored? (invocation.logLevel.getD s.settings.logLevel) with
  | none =>
      rw [perform, hignored]
      exact .refused (Nat.succ_ne_zero 100) rfl
  | some ignored =>
      obtain ⟨hexit, hafter⟩ := perform_of_ignored hignored
      cases heeds_obey s invocation.json invocation.command with
      | idle hchange hkept => exact .idle hchange (hafter.trans hkept)
      | refused hfailed hkept => exact .refused (hexit ▸ hfailed) (hafter.trans hkept)
      | stored hsucceeded hchange htext hstored =>
          exact .stored (hexit.trans hsucceeded) hchange htext (hafter.trans hstored)

/-- What a list of arguments asks to be stored. -/
def changeOf (arguments : List String) : SettingsChange :=
  match Invocation.ofArguments arguments with
  | .ok invocation => invocation.command.change
  | .error _ => .none

theorem heeds_call (s : Session) (arguments : List String) :
    Heeds s (changeOf arguments) (s.call arguments) := by
  unfold call changeOf
  cases Invocation.ofArguments arguments with
  | error refusal =>
      cases refusal with
      | help => exact .idle rfl rfl
      | misuse => exact .idle rfl rfl
  | ok invocation => exact heeds_perform s invocation

theorem call_unchanged {arguments : List String}
    (h : (s.call arguments).1.exit ≠ 0 ∨ changeOf arguments = .none) :
    (s.call arguments).2 = s := by
  cases heeds_call s arguments with
  | idle _ hkept => exact hkept
  | refused _ hkept => exact hkept
  | stored hexit hchange _ _ =>
      rcases h with hfailed | hnone
      · exact absurd hexit hfailed
      · exact absurd hnone hchange

theorem settings_call_of_exit {arguments : List String} (h : (s.call arguments).1.exit = 0) :
    (s.call arguments).2.settings = (changeOf arguments).apply s.settings := by
  cases heeds_call s arguments with
  | idle hchange hkept => rw [hkept, hchange, SettingsChange.none_apply]
  | refused hexit _ => exact absurd h hexit
  | stored _ _ htext hafter =>
      rw [hafter]
      exact Settings.load_of_store? htext

/-! ## Many calls -/

/-- Calls one after the other: their arguments with the responses, and the session
at the end. -/
def callAll (s : Session) : List (List String) → List (List String × Response) × Session
  | [] => ([], s)
  | arguments :: rest =>
    let result := s.call arguments
    let later := callAll result.2 rest
    ((arguments, result.1) :: later.1, later.2)

/-- What was asked for by the calls that succeeded. -/
def accepted (history : List (List String × Response)) : List SettingsChange :=
  (history.filter fun call ↦ call.2.exit = 0).map fun call ↦ changeOf call.1

theorem settings_callAll (s : Session) (calls : List (List String)) :
    (s.callAll calls).2.settings =
      (accepted (s.callAll calls).1).foldl (fun settings change ↦ change.apply settings)
        s.settings := by
  induction calls generalizing s with
  | nil => rfl
  | cons arguments calls ih =>
      have hlater := ih (s.call arguments).2
      rw [callAll, accepted]
      dsimp only
      by_cases hexit : (s.call arguments).1.exit = 0
      · rw [List.filter_cons_of_pos (by simpa using hexit), List.map_cons, List.foldl_cons,
          ← settings_call_of_exit hexit]
        exact hlater
      · rw [List.filter_cons_of_neg (by simpa using hexit)]
        rw [call_unchanged (.inl hexit)] at hlater ⊢
        exact hlater

theorem memoryLimit_foldl (changes : List SettingsChange) (settings : Settings) :
    (changes.foldl (fun settings change ↦ change.apply settings) settings).memoryLimit =
      settings.memoryLimit := by
  induction changes generalizing settings with
  | nil => rfl
  | cons change changes ih => exact ih _

theorem exit_call_eq_zero_iff {arguments : List String} {invocation : Invocation}
    {ignored : List (String × LogFilter.Problem)} {stepLimit : Option Nat}
    {logLevel : Option String} (harguments : Invocation.ofArguments arguments = .ok invocation)
    (hcommand : invocation.command = .configure display stepLimit logLevel)
    (hignored : LogFilter.ignored? (invocation.logLevel.getD s.settings.logLevel) = some ignored) :
    (s.call arguments).1.exit = 0 ↔ SettingsChange.Acceptable ⟨stepLimit, logLevel⟩ := by
  rw [call, harguments]
  dsimp only
  rw [(perform_of_ignored hignored).1, hcommand]
  exact (heeds_configure s invocation.json display ⟨stepLimit, logLevel⟩).2

/-- Whatever was stored at first, the settings after some calls are those from before with
the values of the calls that succeeded, in order.  The memory limit is never changed, and
neither does anything change when a call fails or asks for no change.  Where the log filter
can be set up, a change succeeds when the level is a filter and the limit can be written. -/
theorem settings_after_calls (s : Session) (calls : List (List String)) :
    ((s.callAll calls).2.settings =
        (accepted (s.callAll calls).1).foldl (fun settings change ↦ change.apply settings)
          s.settings ∧
      (s.callAll calls).2.settings.memoryLimit = s.settings.memoryLimit) ∧
    ∀ (t : Session) (arguments : List String),
      ((t.call arguments).1.exit ≠ 0 ∨ changeOf arguments = .none → (t.call arguments).2 = t) ∧
      ∀ invocation display stepLimit logLevel,
        Invocation.ofArguments arguments = .ok invocation →
        invocation.command = .configure display stepLimit logLevel →
        (LogFilter.ignored? (invocation.logLevel.getD t.settings.logLevel)).isSome →
        ((t.call arguments).1.exit = 0 ↔
          (∀ level, logLevel = some level → LogFilter.problem? level = none) ∧
            ∀ limit, stepLimit = some limit → limit < Settings.numberBound) := by
  refine ⟨⟨settings_callAll s calls, ?_⟩, ?_⟩
  · rw [settings_callAll]
    exact memoryLimit_foldl _ _
  · intro t arguments
    refine ⟨call_unchanged, ?_⟩
    intro invocation display stepLimit logLevel harguments hcommand hignored
    obtain ⟨ignored, hignored⟩ := Option.isSome_iff_exists.mp hignored
    exact exit_call_eq_zero_iff harguments hcommand hignored

/-- A limit and a level are stored; a bad level, a run and a limit that is too large are not. -/
def changesAndOthers : List (List String) :=
  [["config", "--set-step-limit", "5"],
    ["config", "--set-step-limit", "7", "--set-log-level", "warn=much"],
    ["run", "00", "--step-limit", "3"],
    ["config", "--set-log-level", "debug"],
    ["config", "--set-step-limit", "9223372036854775808"]]

def partlyStored : Session := ⟨.empty, some "memory_limit = 64"⟩

theorem settings_after_calls_changesAndOthers :
    (partlyStored.callAll changesAndOthers).2.settings = ⟨5, 64, "debug"⟩ ∧
      (partlyStored.call ["config", "--set-step-limit", "7", "--set-log-level", "warn=much"]).2 =
        partlyStored ∧
      (partlyStored.call ["config", "--set-step-limit", "9223372036854775807"]).1.exit = 0 := by
  have haccepted : accepted (partlyStored.callAll changesAndOthers).1 =
      [⟨some 5, none⟩, .none, ⟨none, some "debug"⟩] := by
    decide +kernel
  have hsettings : partlyStored.settings = ⟨1000000, 64, "warn"⟩ := by
    decide +kernel
  obtain ⟨⟨hafter, -⟩, hcalls⟩ := settings_after_calls partlyStored changesAndOthers
  refine ⟨?_, (hcalls _ _).1 (.inl (by decide +kernel)), ?_⟩
  · rw [hafter, haccepted, hsettings]
    rfl
  · refine ((hcalls _ _).2 ⟨false, none, .configure false (some 9223372036854775807) none⟩ _ _ _
      (by rfl) rfl (by decide +kernel)).mpr ⟨nofun, ?_⟩
    rintro limit ⟨⟩
    decide

end Session

end WordMachine
