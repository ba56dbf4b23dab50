import WordMachine.Proofs.TomlLines
import WordMachine.Settings

/-!
# The text of settings

Settings that can be written are read back from their text.  Numbers that are read
fit into 63 bits, so settings that were loaded can be written again: only a new
step limit can be too large.
-/

namespace WordMachine

namespace Settings

open Toml

/-! ## Settings -/

theorem toList_text (s : Settings) :
    s.text.toList = line "step_limit".toList (toString s.stepLimit).toList ++
      (line "memory_limit".toList (toString s.memoryLimit).toList ++
        (line "log_level".toList (quoted s.logLevel).toList ++ [])) := by
  have hstep : "step_limit = ".toList = "step_limit".toList ++ [' ', '=', ' '] := by decide
  have hmemory : "\nmemory_limit = ".toList =
      ['\n'] ++ ("memory_limit".toList ++ [' ', '=', ' ']) := by decide
  have hlevel : "\nlog_level = ".toList = ['\n'] ++ ("log_level".toList ++ [' ', '=', ' ']) := by
    decide
  have hend : "\n".toList = ['\n'] := by decide
  unfold text line
  rw [String.toList_append, String.toList_append, String.toList_append, String.toList_append,
    String.toList_append, String.toList_append, hstep, hmemory, hlevel, hend]
  simp only [List.append_assoc, List.append_nil]

theorem linesFrom_text {s : Settings} (hstep : s.stepLimit < numberBound)
    (hmemory : s.memoryLimit < numberBound) {bound : Nat} (hbound : s.text.toList.length < bound)
    (rounds : Nat) :
    linesFrom bound (rounds + 4) [] [] s.text.toList =
      some [("log_level", .string s.logLevel), ("memory_limit", .integer s.memoryLimit),
        ("step_limit", .integer s.stepLimit)] := by
  have hquoted : (quoted s.logLevel).toList.length < bound := by
    rw [toList_text] at hbound
    simp only [line, List.length_append] at hbound
    omega
  have hname : ∀ name ∈ ["step_limit", "memory_limit", "log_level"],
      name.toList.all isKeyChar = true := by
    decide
  rw [toList_text,
    linesFrom_line (by decide) (hname _ (by simp)) (plain_toString _) (scalar_toString hstep _) rfl,
    linesFrom_line (by decide) (hname _ (by simp)) (plain_toString _) (scalar_toString hmemory _)
      rfl,
    linesFrom_line (by decide) (hname _ (by simp)) (plain_quoted _) (scalar_quoted hquoted _) rfl]
  rfl

theorem parse_text {s : Settings} (hstep : s.stepLimit < numberBound)
    (hmemory : s.memoryLimit < numberBound) :
    Toml.parse s.text = some [("log_level", .string s.logLevel),
      ("memory_limit", .integer s.memoryLimit), ("step_limit", .integer s.stepLimit)] := by
  have hmark : withoutMark s.text.toList = s.text.toList := by
    rw [toList_text]
    rfl
  have hlength : 3 ≤ s.text.toList.length := by
    rw [toList_text]
    simp only [line, List.length_append, List.length_cons]
    omega
  obtain ⟨rounds, hrounds⟩ : ∃ rounds, s.text.toList.length + 1 = rounds + 4 :=
    ⟨s.text.toList.length - 3, by omega⟩
  have hlines := linesFrom_text hstep hmemory (Nat.lt_succ_self _) rounds
  rw [← hrounds] at hlines
  rw [Toml.parse, hmark]
  exact hlines

theorem parse?_text {s : Settings} (hstep : s.stepLimit < numberBound)
    (hmemory : s.memoryLimit < numberBound) : parse? s.text = some s := by
  rw [parse?, parse_text hstep hmemory]
  simp [ofToml?, number, string, List.lookup_cons]

/-- What could be written is what will be loaded. -/
theorem load_of_store? {s : Settings} {text : String} (h : s.store? = some text) :
    load (some text) = s := by
  unfold store? at h
  split at h
  · rename_i hbounds
    cases h
    rw [load, Option.bind_some, parse?_text hbounds.1 hbounds.2]
    rfl
  · cases h

end Settings

/-! ## Numbers that were read -/

namespace TomlValue

def Fits : TomlValue → Prop
  | integer n => n < Toml.integerBound
  | _ => True

end TomlValue

namespace Toml

/-- No number in what was read is too large. -/
def GivesFitting (r : Option (TomlValue × List Char)) : Prop :=
  ∀ found, r = some found → found.1.Fits

theorem GivesFitting.bind {α : Type} {r : Option α} {next : α → Option (TomlValue × List Char)}
    (h : ∀ a, GivesFitting (next a)) : GivesFitting (r >>= next) := by
  intro found hfound
  obtain ⟨a, -, hnext⟩ := Option.bind_eq_some_iff.mp hfound
  exact h a found hnext

theorem GivesFitting.map {α : Type} {r : Option α} {f : α → TomlValue × List Char}
    (h : ∀ a, (f a).1.Fits) : GivesFitting (r.map f) := by
  intro found hfound
  obtain ⟨a, -, rfl⟩ := Option.map_eq_some_iff.mp hfound
  exact h a

theorem givesFitting_some (v : TomlValue) (rest : List Char) (h : v.Fits) :
    GivesFitting (some (v, rest)) := by
  rintro _ ⟨⟩
  exact h

theorem givesFitting_integer? (n : Int) (rest : List Char) : GivesFitting (integer? n rest) := by
  unfold integer?
  split
  · rename_i hrange
    exact givesFitting_some (.integer n) rest hrange.2
  · exact nofun

theorem givesFitting_real? (negative : Bool) (mantissa : Nat) (exponent : Int)
    (rest : List Char) : GivesFitting (real? negative mantissa exponent rest) := by
  unfold real?
  split
  · exact nofun
  · exact givesFitting_some .real rest trivial

theorem givesFitting_afterWhole (negative : Bool) (row : DigitRow) :
    GivesFitting (afterWhole negative row) := by
  unfold afterWhole
  dsimp only
  split
  · apply GivesFitting.bind
    intro places
    split
    · split
      · exact GivesFitting.bind fun _ ↦ givesFitting_real? _ _ _ _
      · exact givesFitting_real? _ _ _ _
    · exact givesFitting_real? _ _ _ _
  · split
    · split
      · exact GivesFitting.bind fun _ ↦ givesFitting_real? _ _ _ _
      · exact givesFitting_integer? _ _
    · exact givesFitting_integer? _ _

theorem givesFitting_inBase (base : Nat) (cs : List Char) : GivesFitting (inBase base cs) :=
  GivesFitting.bind fun _ ↦ givesFitting_integer? _ _

theorem givesFitting_number (cs : List Char) : GivesFitting (number cs) := by
  unfold number
  split
  · exact givesFitting_inBase _ _
  · exact givesFitting_inBase _ _
  · exact givesFitting_inBase _ _
  · dsimp only
    split
    · exact givesFitting_some .real _ trivial
    · exact givesFitting_some .real _ trivial
    · exact GivesFitting.bind fun _ ↦ givesFitting_afterWhole _ _

theorem givesFitting_scalar (bound : Nat) (cs : List Char) : GivesFitting (scalar bound cs) := by
  unfold scalar
  split
  · exact givesFitting_some (.boolean true) _ trivial
  · exact givesFitting_some (.boolean false) _ trivial
  · split
    · exact GivesFitting.map fun _ ↦ trivial
    · split
      · exact GivesFitting.map fun _ ↦ trivial
      · exact givesFitting_number _
  · exact nofun

theorem givesFitting_value (bound depth : Nat) (cs : List Char) :
    GivesFitting (value bound depth cs) := by
  unfold value
  split
  · exact givesFitting_scalar bound _
  · split
    · exact GivesFitting.map fun _ ↦ trivial
    · split
      · exact givesFitting_some (.inlineTable []) _ trivial
      · exact GivesFitting.map fun _ ↦ trivial
    · exact givesFitting_scalar bound _

end Toml

namespace TomlTable

def Fits (t : TomlTable) : Prop := ∀ entry ∈ t, entry.2.Fits

variable {t after : TomlTable} {name : String} {v : TomlValue}

theorem fits_nil : Fits [] := by
  intro entry hentry
  cases hentry

theorem Fits.lookup (ht : Fits t) (h : t.lookup name = some v) : v.Fits := by
  induction t with
  | nil => cases h
  | cons head rest ih =>
      obtain ⟨hhead, hrest⟩ := List.forall_mem_cons.mp ht
      rw [List.lookup_cons] at h
      split at h
      · cases h
        exact hhead
      · exact ih hrest h

theorem Fits.set (ht : Fits t) (hv : v.Fits) : Fits (t.set name v) := by
  induction t with
  | nil => exact List.forall_mem_cons.mpr ⟨hv, fits_nil⟩
  | cons head rest ih =>
      obtain ⟨hhead, hrest⟩ := List.forall_mem_cons.mp ht
      rw [TomlTable.set]
      split
      · exact List.forall_mem_cons.mpr ⟨hv, hrest⟩
      · exact List.forall_mem_cons.mpr ⟨hhead, ih hrest⟩

theorem Fits.add? (ht : Fits t) (hv : v.Fits) (h : t.add? name v = some after) : Fits after := by
  unfold TomlTable.add? at h
  split at h
  · cases h
  · cases h
    exact List.forall_mem_cons.mpr ⟨hv, ht⟩

/-- A table inside another is no number, whatever is done to it. -/
theorem Fits.set_of_bind {inner : Option TomlTable} {wrap : TomlTable → TomlValue} (ht : Fits t)
    (h : (do let inner ← inner; return t.set name (wrap inner)) = some after)
    (hwrap : ∀ inner, (wrap inner).Fits) : Fits after := by
  obtain ⟨inner, -, hset⟩ := Option.bind_eq_some_iff.mp h
  cases hset
  exact ht.set (hwrap inner)

theorem Fits.addDotted? {path : List String} (ht : Fits t) (hv : v.Fits)
    (h : t.addDotted? name v path = some after) : Fits after := by
  cases path with
  | nil => exact ht.add? hv h
  | cons key path =>
      unfold TomlTable.addDotted? at h
      split at h
      · exact ht.set_of_bind h fun _ ↦ trivial
      · split at h
        · cases h
        · exact ht.set_of_bind h fun _ ↦ trivial
      · split at h
        · cases h
        · exact ht.set_of_bind h fun _ ↦ trivial
      · cases h

theorem Fits.change? {f : TomlTable → Option TomlTable} {path : List String} (ht : Fits t)
    (hf : ∀ {t after}, Fits t → f t = some after → Fits after)
    (h : t.change? f path = some after) : Fits after := by
  cases path with
  | nil => exact hf ht h
  | cons key path =>
      unfold TomlTable.change? at h
      split at h
      · exact ht.set_of_bind h fun _ ↦ trivial
      · exact ht.set_of_bind h fun _ ↦ trivial
      · exact ht.set_of_bind h fun _ ↦ trivial
      · cases h

theorem Fits.open? (ht : Fits t) (h : t.open? name = some after) : Fits after := by
  unfold TomlTable.open? at h
  split at h
  · cases h
    exact ht.set trivial
  · cases h
    exact ht.set trivial
  · cases h

theorem Fits.append? (ht : Fits t) (h : t.append? name = some after) : Fits after := by
  unfold TomlTable.append? at h
  split at h
  · cases h
    exact ht.set trivial
  · cases h
    exact ht.set trivial
  · cases h

end TomlTable

namespace Toml

theorem fits_of_entry {bound : Nat} {cs rest : List Char} {path : List String} {name : String}
    {v : TomlValue} (h : entry bound cs = some (path, name, v, rest)) : v.Fits := by
  unfold entry at h
  obtain ⟨⟨path, name, cs⟩, -, h⟩ := Option.bind_eq_some_iff.mp h
  dsimp only at h
  split at h
  · obtain ⟨⟨v, cs⟩, hvalue, h⟩ := Option.bind_eq_some_iff.mp h
    obtain ⟨rest, -, h⟩ := Option.bind_eq_some_iff.mp h
    cases h
    exact givesFitting_value bound maxDepth _ _ hvalue
  · cases h

/-- Every line leaves the table with numbers that are not too large. -/
theorem fits_linesFrom {bound rounds : Nat} {t after : TomlTable} {heading : List String}
    {cs : List Char} (ht : t.Fits) (h : linesFrom bound rounds t heading cs = some after) :
    after.Fits := by
  induction rounds generalizing t heading cs with
  | zero => cases h
  | succ rounds ih =>
      rw [linesFrom] at h
      split at h
      · cases h
        exact ht
      · obtain ⟨⟨path, name, cs⟩, -, h⟩ := Option.bind_eq_some_iff.mp h
        dsimp only at h
        split at h
        · obtain ⟨next, hnext, h⟩ := Option.bind_eq_some_iff.mp h
          obtain ⟨cs, -, h⟩ := Option.bind_eq_some_iff.mp h
          exact ih (ht.change? (fun ht ↦ ht.append?) hnext) h
        · cases h
      · obtain ⟨⟨path, name, cs⟩, -, h⟩ := Option.bind_eq_some_iff.mp h
        dsimp only at h
        split at h
        · obtain ⟨next, hnext, h⟩ := Option.bind_eq_some_iff.mp h
          obtain ⟨cs, -, h⟩ := Option.bind_eq_some_iff.mp h
          exact ih (ht.change? (fun ht ↦ ht.open?) hnext) h
        · cases h
      · split at h
        · obtain ⟨cs, -, h⟩ := Option.bind_eq_some_iff.mp h
          exact ih ht h
        · obtain ⟨⟨path, name, v, cs⟩, hentry, h⟩ := Option.bind_eq_some_iff.mp h
          obtain ⟨next, hnext, h⟩ := Option.bind_eq_some_iff.mp h
          have hv := fits_of_entry hentry
          exact ih (ht.change? (fun ht ↦ ht.addDotted? hv) hnext) h

theorem fits_parse {text : String} {t : TomlTable} (h : parse text = some t) : t.Fits :=
  fits_linesFrom TomlTable.fits_nil h

end Toml

namespace Settings

theorem number_lt {t : TomlTable} {name : String} {fallback n : Nat} (ht : t.Fits)
    (hfallback : fallback < numberBound) (h : number t name fallback = some n) :
    n < numberBound := by
  unfold number at h
  split at h
  · rename_i m hlookup
    split at h
    · have hfits : m < Toml.integerBound := ht.lookup hlookup
      have hbound : numberBound = Toml.integerBound := rfl
      cases h
      omega
    · cases h
  · cases h
  · cases h
    exact hfallback

theorem limits_lt_of_ofToml? {t : TomlTable} {s : Settings} (ht : t.Fits)
    (h : ofToml? t = some s) : s.stepLimit < numberBound ∧ s.memoryLimit < numberBound := by
  unfold ofToml? at h
  obtain ⟨stepLimit, hstep, h⟩ := Option.bind_eq_some_iff.mp h
  obtain ⟨memoryLimit, hmemory, h⟩ := Option.bind_eq_some_iff.mp h
  obtain ⟨logLevel, -, h⟩ := Option.bind_eq_some_iff.mp h
  cases h
  exact ⟨number_lt ht (by decide) hstep, number_lt ht (by decide) hmemory⟩

/-- Loaded limits can always be written again. -/
theorem load_lt (text : Option String) :
    (load text).stepLimit < numberBound ∧ (load text).memoryLimit < numberBound := by
  unfold load
  cases hparse : text.bind parse? with
  | none => exact ⟨by decide, by decide⟩
  | some s =>
      obtain ⟨text, -, hs⟩ := Option.bind_eq_some_iff.mp hparse
      obtain ⟨t, ht, hs⟩ := Option.bind_eq_some_iff.mp hs
      exact limits_lt_of_ofToml? (Toml.fits_parse ht) hs

end Settings

end WordMachine
