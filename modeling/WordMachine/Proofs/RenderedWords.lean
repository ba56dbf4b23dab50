import WordMachine.Fixture.Verdict
import WordMachine.Proofs.Literals
import WordMachine.Proofs.Reassembly

/-!
# Rendered words

A word is rendered without zeros in front, in any number of digits, and read back from
pairs of digits.  Words that are joined to one text end at a comma or with the text, so
that different stacks are never rendered alike, and the two sides of a mismatch differ.
-/

namespace WordMachine

namespace Word

open Numeral

/-! ## Single words -/

section

variable (w : Word)

theorem toList_hex : w.hex.toList = '0' :: 'x' :: Nat.toDigits 16 w.toNat := by
  have hdigits : (Hex.ofNat w.toNat).toList = Nat.toDigits 16 w.toNat := String.toList_ofList
  rw [hex, String.toList_append, hdigits]
  rfl

theorem isNumeral_hexDigits : IsNumeral 16 (Nat.toDigits 16 w.toNat) :=
  isNumeral_toDigits (by omega) (Nat.le_refl 16) _

theorem value_hexDigits : value 16 (Nat.toDigits 16 w.toNat) = w.toNat :=
  value_toDigits (by omega) (Nat.le_refl 16) _

theorem head?_hexDigits_ne (h : w ≠ 0#256) : (Nat.toDigits 16 w.toNat).head? ≠ some '0' := by
  intro hhead
  apply h
  apply BitVec.eq_of_toNat_eq
  exact eq_zero_of_head?_toDigits (by omega) hhead

theorem mem_hex {c : Char} (h : c ∈ w.hex.toList) : c = 'x' ∨ c ∈ digits 16 := by
  rw [toList_hex, List.mem_cons, List.mem_cons] at h
  rcases h with rfl | rfl | hdigit
  · exact .inr List.mem_cons_self
  · exact .inl rfl
  · exact .inr (isNumeral_hexDigits w c hdigit)

theorem hex_injective {a b : Word} (h : a.hex.toList = b.hex.toList) : a = b := by
  rw [toList_hex, toList_hex] at h
  obtain ⟨-, hmarked⟩ := List.cons.inj h
  obtain ⟨-, hdigits⟩ := List.cons.inj hmarked
  apply BitVec.eq_of_toNat_eq
  rw [← value_hexDigits a, hdigits, value_hexDigits]

theorem read_hex : Literal.read w.hex = .ok w := by
  have hblank : ∀ c ∈ w.hex.toList, Text.isBlank c = false := by
    intro c hc
    rcases mem_hex w hc with rfl | hdigit
    · rfl
    · exact Text.isBlank_of_mem_digits hdigit
  have hrow := isNumeral_hexDigits w
  have hlower := Hex.map_toLower_of_isNumeral hrow
  rw [Literal.read_eq_ok_iff (Text.trimmedChars_of_forall hblank), toList_hex]
  have hwritten := Literal.Written.hexadecimal (hlower.symm ▸ hrow)
  rwa [hlower, value_hexDigits] at hwritten

theorem read_decimal : Literal.read (toString w.toNat) = .ok w := by
  have hrow : IsNumeral 10 (Nat.toDigits 10 w.toNat) :=
    isNumeral_toDigits (by omega) (by omega) _
  have hchars : (toString w.toNat).toList = Nat.toDigits 10 w.toNat := by
    rw [Nat.toString_eq_ofList_toDigits, String.toList_ofList]
  have hblank : ∀ c ∈ (toString w.toNat).toList, Text.isBlank c = false := by
    intro c hc
    rw [hchars] at hc
    exact Text.isBlank_of_mem_digits (hrow c hc)
  have hwritten := Literal.Written.decimal hrow
  rw [value_toDigits (by omega) (by omega), ← hchars] at hwritten
  rwa [Literal.read_eq_ok_iff (Text.trimmedChars_of_forall hblank)]

end

theorem readAll_map_hex (ws : List Word) : Literal.readAll (ws.map hex) = .ok ws := by
  induction ws with
  | nil => rfl
  | cons w ws ih =>
      rw [List.map_cons, Literal.readAll, read_hex, ih]
      rfl

/-! ## Joined words -/

/-- What stands behind the first word of a joined list. -/
def hexTail : List Word → List Char
  | [] => []
  | w :: ws => ',' :: ' ' :: (hexList (w :: ws)).toList

theorem toList_hexList_cons (w : Word) (ws : List Word) :
    (hexList (w :: ws)).toList = w.hex.toList ++ hexTail ws := by
  cases ws with
  | nil =>
      rw [hexTail, List.append_nil, hexList, List.map_cons, List.map_nil,
        String.intercalate_singleton]
  | cons next ws =>
      rw [hexTail, hexList, List.map_cons, List.map_cons, String.intercalate_cons_cons,
        String.toList_append, String.toList_append, List.append_assoc]
      rfl

theorem head?_hexTail (ws : List Word) : ∀ c ∈ (hexTail ws).head?, c = ',' := by
  cases ws with
  | nil => exact nofun
  | cons w ws =>
      rintro c ⟨⟩
      rfl

theorem comma_notMem_hex (w : Word) : ',' ∉ w.hex.toList := by
  intro hmem
  rcases mem_hex w hmem with hmark | hdigit
  · cases hmark
  · exact absurd hdigit (by decide)

theorem hexList_injective {xs ys : List Word} (h : hexList xs = hexList ys) : xs = ys := by
  induction xs generalizing ys with
  | nil =>
      cases ys with
      | nil => rfl
      | cons y ys =>
          have hchars := congrArg String.toList h
          rw [toList_hexList_cons, toList_hex] at hchars
          cases hchars
  | cons x xs ih =>
      have hchars := congrArg String.toList h
      cases ys with
      | nil =>
          rw [toList_hexList_cons, toList_hex] at hchars
          cases hchars
      | cons y ys =>
          rw [toList_hexList_cons, toList_hexList_cons] at hchars
          -- On both sides the first word ends at the first comma.
          obtain ⟨hword, htail⟩ := append_inj_of_mark (comma_notMem_hex x) (comma_notMem_hex y)
            (head?_hexTail xs) (head?_hexTail ys) hchars
          rw [hex_injective hword]
          cases xs with
          | nil =>
              cases ys with
              | nil => rfl
              | cons b ys => cases htail
          | cons a xs =>
              cases ys with
              | nil => cases htail
              | cons b ys =>
                  rw [hexTail, hexTail, List.cons.injEq, List.cons.injEq] at htail
                  rw [ih (String.toList_inj.mp htail.2.2)]

end Word

/-! ## Mismatches -/

namespace Result

variable {r : Result} {expectation : Expectation} {stack : Option (List Word)}

theorem ne_of_mismatch?_stack {expected actual : List Word}
    (h : r.mismatch? expectation stack = some (.stack expected actual)) : expected ≠ actual := by
  simp only [mismatch?, Option.orElse_eq_orElse, Option.orElse_eq_or, Option.or_eq_some_iff,
    Option.bind_eq_some_iff] at h
  rcases h with ⟨wanted, -, hfound⟩ | ⟨-, ⟨words, -, hfound⟩ | ⟨-, bytes, -, hfound⟩⟩
  · split at hfound <;> cases hfound
  · split at hfound
    · cases hfound
    · next hne =>
        cases hfound
        exact fun heq ↦ hne heq.symm
  · split at hfound <;> cases hfound

end Result

namespace Fixture

section

variable {trouble : Trouble}

/-- Building the world fails for the sake of one of the addresses. -/
theorem exists_readAddress_of_addAccounts {w : World} {accounts : List (String × FixtureAccount)}
    (h : addAccounts w accounts = .error trouble) :
    ∃ key, readAddress key = .error trouble := by
  induction accounts generalizing w with
  | nil => cases h
  | cons entry rest ih =>
      rw [addAccounts] at h
      cases haddress : readAddress entry.1 with
      | error found =>
          rw [haddress] at h
          cases h
          exact ⟨entry.1, haddress⟩
      | ok address =>
          rw [haddress] at h
          exact ih h

theorem exists_readAddress_of_environment {f : Fixture} (h : f.environment = .error trouble) :
    ∃ key, readAddress key = .error trouble := by
  rw [environment] at h
  cases hworld : f.world with
  | error found =>
      rw [hworld] at h
      cases h
      exact exists_readAddress_of_addAccounts hworld
  | ok world =>
      rw [hworld] at h
      cases h

theorem readAddress_ne_mismatch (key : String) (m : Mismatch) :
    readAddress key ≠ .error (.mismatch m) := by
  unfold readAddress
  split
  · exact nofun
  · split
    · exact nofun
    · exact nofun

theorem expectedStack_ne_mismatch (f : Fixture) (m : Mismatch) :
    f.expectedStack ≠ .error (.mismatch m) := by
  unfold expectedStack
  split
  · exact nofun
  · split
    · exact nofun
    · exact nofun

/-- A mismatch is found by comparing the run with what is expected, not before. -/
theorem mismatch?_of_check {f : Fixture} {limits : Limits} {m : Mismatch}
    (h : f.check limits = .error (.mismatch m)) :
    ∃ bytecode stack, f.code.bytecode = some bytecode ∧ f.expectedStack = .ok stack ∧
      (run bytecode.toArray limits).mismatch? f.expectation stack = some m := by
  unfold check at h
  split at h
  · cases h
  · next bytecode hcode =>
      cases henvironment : f.environment with
      | error found =>
          rw [henvironment] at h
          cases h
          obtain ⟨key, hkey⟩ := exists_readAddress_of_environment henvironment
          exact absurd hkey (readAddress_ne_mismatch key m)
      | ok environment =>
          cases hstack : f.expectedStack with
          | error found =>
              rw [henvironment, hstack] at h
              cases h
              exact absurd hstack (f.expectedStack_ne_mismatch m)
          | ok stack =>
              rw [henvironment, hstack] at h
              cases hfound : (run bytecode.toArray limits).mismatch? f.expectation stack with
              | none =>
                  simp only [bind, Except.bind, hfound] at h
                  cases h
              | some found =>
                  simp only [bind, Except.bind, hfound] at h
                  cases h
                  exact ⟨bytecode, stack, hcode, rfl, hfound⟩

end

end Fixture

namespace Word

open Numeral

/-- A word is rendered as `0x` and its shortest lower-case digits, and is read back from them
as from its decimal digits.  A rendered stack is read back word by word.  Joined to one text,
different stacks differ, so that the sides of a stack mismatch do. -/
theorem rendered_words_read_back :
    (∀ w : Word,
        (∃ ds, w.hex.toList = '0' :: 'x' :: ds ∧ ds ≠ [] ∧ IsNumeral 16 ds ∧
          (w = 0#256 → ds = ['0']) ∧ (w ≠ 0#256 → ds.head? ≠ some '0')) ∧
        Literal.read w.hex = .ok w ∧
        Literal.read (toString w.toNat) = .ok w) ∧
      (∀ r : Result, Literal.readAll r.stackHex = .ok r.stack) ∧
      (∀ xs ys : List Word, xs ≠ ys → hexList xs ≠ hexList ys) ∧
      ∀ (f : Fixture) (limits : Limits) (expected actual : List Word),
        f.check limits = .error (.mismatch (.stack expected actual)) →
          (Trouble.mismatch (.stack expected actual)).message =
            "Assertion failed: " ++ ("stack mismatch: expected [" ++ hexList expected ++
              "], got [" ++ hexList actual ++ "]") ∧
          hexList expected ≠ hexList actual := by
  refine ⟨?_, ?_, ?_, ?_⟩
  · intro w
    refine ⟨⟨_, toList_hex w, Nat.toDigits_ne_nil, isNumeral_hexDigits w, ?_, ?_⟩, ?_, ?_⟩
    · rintro rfl
      exact Nat.toDigits_zero 16
    · exact head?_hexDigits_ne w
    · exact read_hex w
    · exact read_decimal w
  · exact fun r ↦ readAll_map_hex r.stack
  · exact fun xs ys hne heq ↦ hne (hexList_injective heq)
  · intro f limits expected actual h
    obtain ⟨bytecode, stack, -, -, hfound⟩ := Fixture.mismatch?_of_check h
    refine ⟨rfl, ?_⟩
    intro heq
    exact Result.ne_of_mismatch?_stack hfound (hexList_injective heq)

/-- A program that leaves nothing on the stack, where a zero is expected. -/
def emptyForZero : Fixture :=
  { Fixture.blank with code := ⟨none, some []⟩, expectation := ⟨some ["0"], none, none⟩ }

theorem rendered_words_read_back_emptyForZero :
    (∃ ds, (hex 0#256).toList = '0' :: 'x' :: ds ∧ ds = ['0']) ∧
      (∃ ds, (hex 256#256).toList = '0' :: 'x' :: ds ∧ ds.head? ≠ some '0') ∧
      hexList [0#256, 0#256] ≠ hexList [0#256] ∧
      emptyForZero.check ⟨some 10, 64⟩ = .error (.mismatch (.stack [0#256] [])) ∧
      hexList [0#256] ≠ hexList [] := by
  obtain ⟨hwords, -, hstacks, hmismatch⟩ := rendered_words_read_back
  have hcheck : emptyForZero.check ⟨some 10, 64⟩ = .error (.mismatch (.stack [0#256] [])) := rfl
  obtain ⟨⟨ds, hds, -, -, hzero, -⟩, -⟩ := hwords 0#256
  obtain ⟨⟨es, hes, -, -, -, hother⟩, -⟩ := hwords 256#256
  refine ⟨⟨ds, hds, hzero rfl⟩, ⟨es, hes, hother (by decide)⟩, ?_, hcheck, ?_⟩
  · exact hstacks _ _ (by decide)
  · exact (hmismatch _ _ _ _ hcheck).2

end Word

end WordMachine
