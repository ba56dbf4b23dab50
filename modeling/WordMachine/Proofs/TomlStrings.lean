import WordMachine.Toml.Text

/-!
# Strings that are written can be read

Whatever the characters of a string, the form that writing chooses for it is read
back as that string.  In a long form one or two marks may stand before the
delimiter, and all that keeps them apart from it is that no three marks stand in a
row in the text.
-/

namespace WordMachine

namespace Toml

/-! ## Escapes -/

/-- How a character may stand between quotes: as itself, or behind a backslash
that is not at the end of its line. -/
inductive Escapes (c : Char) : List Char → Prop where
  | plain (hquote : c ≠ '"') (hbackslash : c ≠ '\\') (hallowed : isForbidden c = false) :
      Escapes c [c]
  | marked {x : Char} {xs : List Char} (hblank : isBlank x = false) (hline : x ≠ '\n')
      (hreturn : x ≠ '\r') (hread : ∀ rest, escaped (x :: (xs ++ rest)) = some (c, rest)) :
      Escapes c ('\\' :: x :: xs)

theorem toNat_lt_of_isForbidden {c : Char} (h : isForbidden c = true) : c.toNat < 128 := by
  simp only [isForbidden, Bool.or_eq_true, Bool.and_eq_true, decide_eq_true_eq] at h
  omega

theorem digitValue?_toUpper_digitChar :
    ∀ n < 16, Hex.digitValue? (Nat.digitChar n).toUpper = some n := by
  decide

theorem escaped_control {c : Char} (h : isForbidden c = true) (rest : List Char) :
    escaped ('u' :: (['0', '0'] ++
      (Hex.byteDigits (UInt8.ofNat c.toNat)).map Char.toUpper ++ rest)) = some (c, rest) := by
  have hlt := toNat_lt_of_isForbidden h
  have hbyte : (UInt8.ofNat c.toNat).toNat = c.toNat := by
    rw [UInt8.toNat_ofNat']
    omega
  have hzero : Hex.digitValue? '0' = some 0 := by decide
  have hvalid : c.toNat.isValidChar := c.valid
  have hvalue : c.toNat / 16 * 16 + c.toNat % 16 = c.toNat := by omega
  simp only [escaped, numbered, Hex.byteDigits, hbyte, List.cons_append, List.nil_append,
    List.map_cons, List.map_nil, List.take_succ_cons, List.take_zero, List.mapM_cons,
    List.mapM_nil, hzero, digitValue?_toUpper_digitChar (c.toNat / 16) (by omega),
    digitValue?_toUpper_digitChar (c.toNat % 16) (by omega), List.drop_succ_cons, List.drop_zero]
  simp [hvalue, hvalid]

theorem escapes_escape (c : Char) : Escapes c (escape c) := by
  unfold escape
  iterate 7
    split
    · subst_vars
      exact .marked (by decide) (by decide) (by decide) fun _ ↦ rfl
  split
  · rename_i hcontrol
    exact .marked (by decide) (by decide) (by decide) (escaped_control hcontrol)
  · rename_i hquote hbackslash _ _ _ _ _ hallowed
    exact .plain hquote hbackslash (by simpa using hallowed)

/-! ## Short strings -/

theorem basicFrom_escape {rounds : Nat} {cs : List Char} (h : cs.length < rounds)
    (rest : List Char) :
    basicFrom rounds (cs.flatMap escape ++ '"' :: rest) = some (cs, rest) := by
  induction cs generalizing rounds with
  | nil =>
      obtain ⟨rounds, rfl⟩ := Nat.exists_eq_add_one_of_ne_zero (Nat.ne_zero_of_lt h)
      rfl
  | cons c cs ih =>
      obtain ⟨rounds, rfl⟩ := Nat.exists_eq_add_one_of_ne_zero (Nat.ne_zero_of_lt h)
      have hread := ih (Nat.lt_of_succ_lt_succ h)
      rw [List.flatMap_cons, List.append_assoc]
      have hc := escapes_escape c
      generalize escape c = text at hc
      cases hc with
      | plain hquote hbackslash hallowed => simp [basicFrom, hallowed, hread]
      | marked _ _ _ hescaped => simp [basicFrom, hescaped, hread]

theorem literalFrom_append {cs : List Char}
    (h : ∀ c ∈ cs, c ≠ '\'' ∧ isForbidden c = false) (rest : List Char) :
    literalFrom (cs ++ '\'' :: rest) = some (cs, rest) := by
  induction cs with
  | nil => rfl
  | cons c cs ih =>
      obtain ⟨hmark, hallowed⟩ := h c List.mem_cons_self
      have hread := ih fun d hd ↦ h d (List.mem_cons_of_mem c hd)
      simp [literalFrom, hallowed, hread]

/-! ## Rows of marks -/

/-- The number of marks that a text begins with. -/
def leading (mark : Char) (cs : List Char) : Nat := (cs.takeWhile (· = mark)).length

variable {mark : Char} {cs rest : List Char}

theorem leading_cons_self (mark : Char) (cs : List Char) :
    leading mark (mark :: cs) = leading mark cs + 1 := by
  simp [leading]

theorem leading_cons_of_ne {c : Char} (h : c ≠ mark) (cs : List Char) :
    leading mark (c :: cs) = 0 := by
  simp [leading, h]

theorem ne_cons_cons_of_leading (h : leading mark cs < 2) (more : List Char) :
    cs ≠ mark :: mark :: more := by
  rintro rfl
  rw [leading_cons_self, leading_cons_self] at h
  omega

theorem leading_of_head? (h : cs.head? ≠ some mark) : leading mark cs = 0 := by
  cases cs with
  | nil => rfl
  | cons c cs =>
      apply leading_cons_of_ne
      rintro rfl
      exact h rfl

theorem leading_append_of_forall (h : ∀ c ∈ cs, c = mark) (more : List Char) :
    leading mark (cs ++ more) = cs.length + leading mark more := by
  induction cs with
  | nil => rw [List.nil_append, List.length_nil, Nat.zero_add]
  | cons c cs ih =>
      rw [h c List.mem_cons_self, List.cons_append, leading_cons_self,
        ih fun d hd ↦ h d (List.mem_cons_of_mem c hd), List.length_cons]
      omega

theorem leading_append_of_exists (h : ∃ c ∈ cs, c ≠ mark) (more : List Char) :
    leading mark (cs ++ more) = leading mark cs := by
  induction cs with
  | nil =>
      obtain ⟨c, hc, -⟩ := h
      cases hc
  | cons d cs ih =>
      rw [List.cons_append]
      by_cases hd : d = mark
      · subst hd
        obtain ⟨c, hc, hne⟩ := h
        have hmem := (List.mem_cons.mp hc).resolve_left hne
        rw [leading_cons_self, leading_cons_self, ih ⟨c, hmem, hne⟩]
      · rw [leading_cons_of_ne hd, leading_cons_of_ne hd]

theorem forall_or_exists_ne (mark : Char) (cs : List Char) :
    (∀ c ∈ cs, c = mark) ∨ ∃ c ∈ cs, c ≠ mark := by
  by_cases h : ∃ c ∈ cs, c ≠ mark
  · exact .inr h
  · left
    intro c hc
    by_cases hne : c = mark
    · exact hne
    · exact absurd ⟨c, hc, hne⟩ h

theorem closing?_of_exists (hother : ∃ c ∈ cs, c ≠ mark) (hshort : leading mark cs ≤ 2)
    (more : List Char) : closing? mark (cs ++ more) = none := by
  rw [← leading_append_of_exists hother more] at hshort
  exact if_pos (Nat.lt_succ_of_le hshort)

theorem closing?_of_forall (hall : ∀ c ∈ cs, c = mark) (hshort : cs.length ≤ 2)
    (hrest : rest.head? ≠ some mark) :
    closing? mark (cs ++ (List.replicate 3 mark ++ rest)) = some (cs, rest) := by
  have hmarks : leading mark (cs ++ (List.replicate 3 mark ++ rest)) = cs.length + 3 := by
    rw [leading_append_of_forall hall,
      leading_append_of_forall (fun _ hc ↦ List.eq_of_mem_replicate hc), List.length_replicate,
      leading_of_head? hrest]
  have hown : min (cs.length + 3) 5 - 3 = cs.length := by omega
  have hdrop : (cs ++ (List.replicate 3 mark ++ rest)).drop (cs.length + 3) = rest := by
    rw [← List.append_assoc]
    exact List.drop_left' (by simp)
  unfold leading at hmarks
  rw [closing?, hmarks, if_neg (by omega), hown]
  dsimp only
  rw [hdrop, ← List.eq_replicate_of_mem hall]

theorem length_le_of_leading {bound : Nat} (hall : ∀ c ∈ cs, c = mark)
    (h : leading mark cs ≤ bound) : cs.length ≤ bound := by
  have hleading := leading_append_of_forall hall []
  rw [List.append_nil] at hleading
  omega

/-! ## Long strings -/

theorem leading_of_longestRun {bound : Nat} (cs : List Char) (count : Nat)
    (h : longestRun mark count cs ≤ bound) : leading mark cs + count ≤ bound := by
  induction cs generalizing count with
  | nil =>
      rw [longestRun] at h
      simpa [leading] using h
  | cons c cs ih =>
      rw [longestRun] at h
      split at h
      · subst_vars
        have hcount := ih _ h
        rw [leading_cons_self]
        omega
      · rename_i hne
        rw [leading_cons_of_ne hne]
        omega

theorem longestRun_tail {bound : Nat} {c : Char} {count : Nat}
    (h : longestRun mark count (c :: cs) ≤ bound) : ∃ next, longestRun mark next cs ≤ bound := by
  rw [longestRun] at h
  split at h
  · exact ⟨_, h⟩
  · exact ⟨0, by omega⟩

theorem longLiteralFrom_of_closing {rounds : Nat} {done : List Char × List Char}
    (h : closing? '\'' cs = some done) : longLiteralFrom (rounds + 1) cs = some done := by
  rw [longLiteralFrom.eq_def]
  simp only [h]

theorem longLiteralFrom_cons {rounds : Nat} {c : Char} (h : closing? '\'' (c :: cs) = none)
    (hallowed : isForbidden c = true → c = '\n') :
    longLiteralFrom (rounds + 1) (c :: cs) =
      (longLiteralFrom rounds cs).map fun found ↦ (c :: found.1, found.2) := by
  rw [longLiteralFrom, h]
  · have hpass : ¬(isForbidden c && c != '\n') = true := by simpa using hallowed
    dsimp only
    rw [if_neg hpass]
    cases longLiteralFrom rounds cs with
    | none => rfl
    | some found => rfl
  · rintro _ rfl
    exact absurd (hallowed rfl) (by decide)

theorem longLiteralFrom_append {rounds count : Nat} (hrun : longestRun '\'' count cs ≤ 2)
    (hallowed : ∀ c ∈ cs, isForbidden c = true → c = '\n') (h : cs.length < rounds)
    (hrest : rest.head? ≠ some '\'') :
    longLiteralFrom rounds (cs ++ (List.replicate 3 '\'' ++ rest)) = some (cs, rest) := by
  induction cs generalizing rounds count with
  | nil =>
      obtain ⟨rounds, rfl⟩ := Nat.exists_eq_add_one_of_ne_zero (Nat.ne_zero_of_lt h)
      exact longLiteralFrom_of_closing (closing?_of_forall nofun (Nat.zero_le 2) hrest)
  | cons c cs ih =>
      obtain ⟨rounds, rfl⟩ := Nat.exists_eq_add_one_of_ne_zero (Nat.ne_zero_of_lt h)
      have hleading : leading '\'' (c :: cs) ≤ 2 :=
        Nat.le_of_add_right_le (leading_of_longestRun _ _ hrun)
      rcases forall_or_exists_ne '\'' (c :: cs) with hall | hother
      · apply longLiteralFrom_of_closing
        exact closing?_of_forall hall (length_le_of_leading hall hleading) hrest
      · have hopen := closing?_of_exists hother hleading (List.replicate 3 '\'' ++ rest)
        obtain ⟨next, hnext⟩ := longestRun_tail hrun
        have hread := ih hnext (fun d hd ↦ hallowed d (List.mem_cons_of_mem c hd))
          (Nat.lt_of_succ_lt_succ h)
        rw [List.cons_append] at hopen ⊢
        rw [longLiteralFrom_cons hopen (hallowed c List.mem_cons_self), hread]
        rfl

theorem leading_append_escape (c : Char) (more : List Char) :
    leading '"' (escape c ++ more) = 0 := by
  have hc := escapes_escape c
  generalize escape c = text at hc
  cases hc with
  | plain hquote _ _ => exact leading_cons_of_ne hquote more
  | marked => exact leading_cons_of_ne (by decide) _

theorem leading_escapeLong {quotes : Nat} (h : quotes ≤ 2) (cs : List Char) :
    leading '"' (escapeLong quotes cs) + quotes ≤ 2 := by
  induction cs generalizing quotes with
  | nil => simpa [escapeLong, leading] using h
  | cons c cs ih =>
      rw [escapeLong]
      split
      · rename_i hquote
        have hnext : leading '"' (escapeLong (quotes + 1) cs) + (quotes + 1) ≤ 2 :=
          ih (Nat.succ_le_of_lt hquote.2)
        rw [leading_cons_self]
        omega
      · split
        · rw [leading_cons_of_ne (by decide)]
          omega
        · rw [leading_append_escape]
          omega

/-- Only a text of quotes is written with nothing but quotes. -/
theorem escapeLong_of_forall {quotes : Nat} (h : ∀ c ∈ escapeLong quotes cs, c = '"') :
    escapeLong quotes cs = cs := by
  induction cs generalizing quotes with
  | nil => rfl
  | cons c cs ih =>
      rw [escapeLong] at h ⊢
      split at h
      · rename_i hquote
        rw [if_pos hquote, ih fun d hd ↦ h d (List.mem_cons_of_mem _ hd), hquote.1]
      · exfalso
        split at h
        · exact absurd (h '\n' List.mem_cons_self) (by decide)
        · have hc := escapes_escape c
          generalize escape c = text at hc h
          cases hc with
          | plain hquote _ _ => exact hquote (h c List.mem_cons_self)
          | marked => exact absurd (h '\\' List.mem_cons_self) (by decide)

theorem longBasicFrom_of_closing {rounds : Nat} {done : List Char × List Char}
    (h : closing? '"' cs = some done) : longBasicFrom (rounds + 1) cs = some done := by
  rw [longBasicFrom.eq_def]
  simp only [h]

theorem longBasicFrom_cons {rounds : Nat} {c : Char} (h : closing? '"' (c :: cs) = none)
    (hbackslash : c ≠ '\\') (hallowed : isForbidden c = true → c = '\n') :
    longBasicFrom (rounds + 1) (c :: cs) =
      (longBasicFrom rounds cs).map fun found ↦ (c :: found.1, found.2) := by
  rw [longBasicFrom, h]
  · have hpass : ¬(isForbidden c && c != '\n') = true := by simpa using hallowed
    dsimp only
    rw [if_neg hpass]
    cases longBasicFrom rounds cs with
    | none => rfl
    | some found => rfl
  · exact hbackslash
  · rintro _ rfl
    exact absurd (hallowed rfl) (by decide)

theorem skipBlanks_cons {c : Char} (h : isBlank c = false) (cs : List Char) :
    skipBlanks (c :: cs) = c :: cs := by
  simp [skipBlanks, h]

theorem newline?_cons {c : Char} (hline : c ≠ '\n') (hreturn : c ≠ '\r') (cs : List Char) :
    newline? (c :: cs) = none := by
  unfold newline?
  split
  · rename_i heq
    exact absurd (List.cons.inj heq).1 hline
  · rename_i heq
    exact absurd (List.cons.inj heq).1 hreturn
  · rfl

theorem continuation?_cons {c : Char} (hblank : isBlank c = false) (hline : c ≠ '\n')
    (hreturn : c ≠ '\r') (cs : List Char) : continuation? (c :: cs) = none := by
  rw [continuation?, skipBlanks_cons hblank, newline?_cons hline hreturn]
  rfl

theorem longBasicFrom_escape {rounds : Nat} (c : Char)
    (h : closing? '"' (escape c ++ cs) = none) :
    longBasicFrom (rounds + 1) (escape c ++ cs) =
      (longBasicFrom rounds cs).map fun found ↦ (c :: found.1, found.2) := by
  have hc := escapes_escape c
  generalize escape c = text at hc h
  cases hc with
  | plain hquote hbackslash hallowed =>
      apply longBasicFrom_cons h hbackslash
      intro hforbidden
      exact absurd (hallowed.symm.trans hforbidden) (by decide)
  | marked hblank hline hreturn hread =>
      rw [List.cons_append, List.cons_append] at h ⊢
      rw [longBasicFrom, h]
      simp only [continuation?_cons hblank hline hreturn, hread, Option.bind_eq_bind,
        Option.bind_some]
      cases longBasicFrom rounds cs with
      | none => rfl
      | some found => rfl

theorem longBasicFrom_escapeLong {rounds quotes : Nat} (hquotes : quotes ≤ 2)
    (h : cs.length < rounds) (hrest : rest.head? ≠ some '"') :
    longBasicFrom rounds (escapeLong quotes cs ++ (List.replicate 3 '"' ++ rest)) =
      some (cs, rest) := by
  induction cs generalizing rounds quotes with
  | nil =>
      obtain ⟨rounds, rfl⟩ := Nat.exists_eq_add_one_of_ne_zero (Nat.ne_zero_of_lt h)
      exact longBasicFrom_of_closing (closing?_of_forall nofun (Nat.zero_le 2) hrest)
  | cons c cs ih =>
      obtain ⟨rounds, rfl⟩ := Nat.exists_eq_add_one_of_ne_zero (Nat.ne_zero_of_lt h)
      have hleading := Nat.le_of_add_right_le (leading_escapeLong hquotes (c :: cs))
      rcases forall_or_exists_ne '"' (escapeLong quotes (c :: cs)) with hall | hother
      · have hlength := length_le_of_leading hall hleading
        have hself := escapeLong_of_forall hall
        rw [hself] at hall hlength ⊢
        exact longBasicFrom_of_closing (closing?_of_forall hall hlength hrest)
      · have hopen := closing?_of_exists hother hleading (List.replicate 3 '"' ++ rest)
        have hrounds := Nat.lt_of_succ_lt_succ h
        rw [escapeLong] at hopen ⊢
        by_cases hquote : c = '"' ∧ quotes < 2
        · rw [if_pos hquote, List.cons_append] at hopen ⊢
          rw [longBasicFrom_cons hopen (by decide) (by decide),
            ih (Nat.succ_le_of_lt hquote.2) hrounds, hquote.1]
          rfl
        · rw [if_neg hquote] at hopen ⊢
          by_cases hline : c = '\n'
          · rw [if_pos hline, List.cons_append] at hopen ⊢
            rw [longBasicFrom_cons hopen (by decide) (by decide), ih (Nat.zero_le 2) hrounds, hline]
            rfl
          · rw [if_neg hline, List.append_assoc] at hopen ⊢
            rw [longBasicFrom_escape c hopen, ih (Nat.zero_le 2) hrounds]
            rfl

/-! ## The four forms -/

theorem notMem_of_longestRun {count : Nat} (h : longestRun mark count cs = 0) : mark ∉ cs := by
  induction cs generalizing count with
  | nil => exact List.not_mem_nil
  | cons c cs ih =>
      rw [longestRun] at h
      split at h
      · have hcount := leading_of_longestRun cs _ (Nat.le_of_eq h)
        omega
      · rename_i hne
        have hrest : longestRun mark 0 cs = 0 := by omega
        rw [List.mem_cons, not_or]
        exact ⟨Ne.symm hne, ih hrest⟩

/-- What a form asks of a text; those with quotes ask nothing. -/
inductive Suits (cs : List Char) : TomlStyle → Prop where
  | basic : Suits cs .basic
  | literal (hne : cs ≠ []) (hchars : ∀ c ∈ cs, c ≠ '\'' ∧ isForbidden c = false) :
      Suits cs .literal
  | longBasic : Suits cs .longBasic
  | longLiteral (hrun : longestRun '\'' 0 cs ≤ 2)
      (hallowed : ∀ c ∈ cs, isForbidden c = true → c = '\n') : Suits cs .longLiteral

theorem suits_style (cs : List Char) : Suits cs (style cs) := by
  have hcontrols : (cs.any fun c ↦ isForbidden c && c != '\n') = false →
      ∀ c ∈ cs, isForbidden c = true → c = '\n' := by
    intro h c hc
    simpa using List.any_eq_false.mp h c hc
  unfold style
  dsimp only
  split
  · exact .basic
  · split
    · rename_i hbasic hliteral
      simp only [Bool.and_eq_true, Bool.not_eq_true', decide_eq_true_eq] at hliteral
      obtain ⟨⟨hcontrol, hrun⟩, hlines⟩ := hliteral
      refine .literal ?_ ?_
      · rintro rfl
        exact hbasic rfl
      · intro c hc
        refine ⟨fun hmark ↦ notMem_of_longestRun hrun (hmark ▸ hc), ?_⟩
        apply Bool.eq_false_iff.mpr
        intro hforbidden
        have hline := hcontrols hcontrol c hc hforbidden
        exact absurd (hline ▸ hc) (by simpa using hlines)
    · split
      · exact .longBasic
      · split
        · rename_i hlong
          simp only [Bool.and_eq_true, Bool.not_eq_true', decide_eq_true_eq] at hlong
          exact .longLiteral hlong.2 (hcontrols hlong.1)
        · split
          · exact .longBasic
          · exact .basic

theorem string_basic {bound : Nat} (h : leading '"' cs < 2) :
    string bound ('"' :: cs) =
      (basicFrom bound cs).map fun found ↦ (String.ofList found.1, found.2) := by
  rw [string]
  · cases basicFrom bound cs with
    | none => rfl
    | some found => rfl
  · exact ne_cons_cons_of_leading h

theorem string_literal {bound : Nat} (h : leading '\'' cs < 2) :
    string bound ('\'' :: cs) =
      (literalFrom cs).map fun found ↦ (String.ofList found.1, found.2) := by
  rw [string]
  · cases literalFrom cs with
    | none => rfl
    | some found => rfl
  · exact ne_cons_cons_of_leading h

theorem string_longBasic (bound : Nat) (cs : List Char) :
    string bound (List.replicate 3 '"' ++ cs) =
      (longBasicFrom bound (skipFirstNewline cs)).map
        fun found ↦ (String.ofList found.1, found.2) := by
  rw [show List.replicate 3 '"' ++ cs = '"' :: '"' :: '"' :: cs from rfl, string]
  cases longBasicFrom bound (skipFirstNewline cs) with
  | none => rfl
  | some found => rfl

theorem string_longLiteral (bound : Nat) (cs : List Char) :
    string bound (List.replicate 3 '\'' ++ cs) =
      (longLiteralFrom bound (skipFirstNewline cs)).map
        fun found ↦ (String.ofList found.1, found.2) := by
  rw [show List.replicate 3 '\'' ++ cs = '\'' :: '\'' :: '\'' :: cs from rfl, string]
  cases longLiteralFrom bound (skipFirstNewline cs) with
  | none => rfl
  | some found => rfl

/-- The line feed that is put in front of a text with lines does not count, and
without it no other is taken for it. -/
theorem skipFirstNewline_append {text : List Char}
    (h : '\n' ∉ cs → text.head? ≠ some '\n' ∧ text.head? ≠ some '\r') :
    skipFirstNewline ((if cs.contains '\n' then ['\n'] else []) ++ text) = text := by
  split
  · rfl
  · rename_i hlines
    obtain ⟨hline, hreturn⟩ := h (by simpa using hlines)
    cases text with
    | nil => rfl
    | cons c text =>
        rw [List.nil_append, skipFirstNewline, newline?_cons]
        · rfl
        · rintro rfl
          exact hline rfl
        · rintro rfl
          exact hreturn rfl

theorem head?_escapeLong {quotes : Nat} (h : '\n' ∉ cs) (more : List Char) :
    (escapeLong quotes cs ++ (List.replicate 3 '"' ++ more)).head? ≠ some '\n' ∧
      (escapeLong quotes cs ++ (List.replicate 3 '"' ++ more)).head? ≠ some '\r' := by
  cases cs with
  | nil => exact ⟨by simp [escapeLong], by simp [escapeLong]⟩
  | cons c cs =>
      have hline : c ≠ '\n' := fun hc ↦ h (hc ▸ List.mem_cons_self)
      rw [escapeLong, if_neg hline]
      split
      · exact ⟨by simp, by simp⟩
      · have hc := escapes_escape c
        generalize escape c = text at hc
        cases hc with
        | plain _ _ hallowed =>
            refine ⟨by simpa using hline, ?_⟩
            simp only [List.cons_append, List.head?_cons, ne_eq, Option.some.injEq]
            rintro rfl
            exact absurd hallowed (by decide)
        | marked => exact ⟨by simp, by simp⟩

theorem head?_append_of_allowed (hlines : '\n' ∉ cs)
    (hallowed : ∀ c ∈ cs, isForbidden c = true → c = '\n') (more : List Char) :
    (cs ++ (List.replicate 3 '\'' ++ more)).head? ≠ some '\n' ∧
      (cs ++ (List.replicate 3 '\'' ++ more)).head? ≠ some '\r' := by
  cases cs with
  | nil => exact ⟨by simp, by simp⟩
  | cons c cs =>
      simp only [List.cons_append, List.head?_cons, ne_eq, Option.some.injEq]
      constructor
      · rintro rfl
        exact hlines List.mem_cons_self
      · rintro rfl
        exact absurd (hallowed _ List.mem_cons_self rfl) (by decide)

theorem string_written_of_suits {bound : Nat} {style : TomlStyle} (h : Suits cs style)
    (hbound : cs.length < bound) (hquote : rest.head? ≠ some '"')
    (hapostrophe : rest.head? ≠ some '\'') :
    string bound (written style cs ++ rest) = some (String.ofList cs, rest) := by
  cases h with
  | basic =>
      have hleading : leading '"' (cs.flatMap escape ++ '"' :: rest) < 2 := by
        cases cs with
        | nil =>
            rw [List.flatMap_nil, List.nil_append, leading_cons_self, leading_of_head? hquote]
            decide
        | cons c cs =>
            rw [List.flatMap_cons, List.append_assoc, leading_append_escape]
            decide
      have hform : written .basic cs ++ rest = '"' :: (cs.flatMap escape ++ '"' :: rest) := by
        simp [written, body, TomlStyle.isLong, TomlStyle.delimiter]
      rw [hform, string_basic hleading, basicFrom_escape hbound]
      rfl
  | literal hne hchars =>
      have hleading : leading '\'' (cs ++ '\'' :: rest) < 2 := by
        obtain ⟨c, cs, rfl⟩ := List.exists_cons_of_ne_nil hne
        rw [List.cons_append, leading_cons_of_ne (hchars c List.mem_cons_self).1]
        decide
      have hform : written .literal cs ++ rest = '\'' :: (cs ++ '\'' :: rest) := by
        simp [written, body, TomlStyle.isLong, TomlStyle.delimiter]
      rw [hform, string_literal hleading, literalFrom_append hchars]
      rfl
  | longBasic =>
      have hform : written .longBasic cs ++ rest = List.replicate 3 '"' ++
          ((if cs.contains '\n' then ['\n'] else []) ++
            (escapeLong 0 cs ++ (List.replicate 3 '"' ++ rest))) := by
        simp [written, body, TomlStyle.isLong, TomlStyle.delimiter]
      rw [hform, string_longBasic,
        skipFirstNewline_append fun hlines ↦ head?_escapeLong hlines rest,
        longBasicFrom_escapeLong (Nat.zero_le 2) hbound hquote]
      rfl
  | longLiteral hrun hallowed =>
      have hform : written .longLiteral cs ++ rest = List.replicate 3 '\'' ++
          ((if cs.contains '\n' then ['\n'] else []) ++
            (cs ++ (List.replicate 3 '\'' ++ rest))) := by
        simp [written, body, TomlStyle.isLong, TomlStyle.delimiter]
      rw [hform, string_longLiteral,
        skipFirstNewline_append fun hlines ↦ head?_append_of_allowed hlines hallowed rest,
        longLiteralFrom_append hrun hallowed hbound hapostrophe]
      rfl

theorem length_escape_pos (c : Char) : 1 ≤ (escape c).length := by
  have hc := escapes_escape c
  generalize escape c = text at hc
  cases hc with
  | plain => exact Nat.le_refl 1
  | marked => exact Nat.le_add_left 1 _

theorem length_le_flatMap_escape (cs : List Char) : cs.length ≤ (cs.flatMap escape).length := by
  induction cs with
  | nil => exact Nat.le_refl 0
  | cons c cs ih =>
      have hc := length_escape_pos c
      rw [List.flatMap_cons, List.length_append, List.length_cons]
      omega

theorem length_le_escapeLong (quotes : Nat) (cs : List Char) :
    cs.length ≤ (escapeLong quotes cs).length := by
  induction cs generalizing quotes with
  | nil => exact Nat.zero_le _
  | cons c cs ih =>
      rw [escapeLong]
      split
      · exact Nat.succ_le_succ (ih _)
      · split
        · exact Nat.succ_le_succ (ih _)
        · have hc := length_escape_pos c
          have hcs := ih 0
          rw [List.length_append, List.length_cons]
          omega

theorem length_le_written (style : TomlStyle) (cs : List Char) :
    cs.length ≤ (written style cs).length := by
  have hbody : cs.length ≤ (body style cs).length := by
    cases style with
    | basic => exact length_le_flatMap_escape cs
    | literal => exact Nat.le_refl _
    | longBasic => exact length_le_escapeLong 0 cs
    | longLiteral => exact Nat.le_refl _
  simp only [written, List.length_append]
  omega

/-- A string that was written is read back, whatever stands in it, as long as what
follows is no quote or apostrophe. -/
theorem string_quoted {bound : Nat} {s : String} (hbound : (quoted s).toList.length < bound)
    (hquote : rest.head? ≠ some '"') (hapostrophe : rest.head? ≠ some '\'') :
    string bound ((quoted s).toList ++ rest) = some (s, rest) := by
  rw [quoted, String.toList_ofList] at hbound ⊢
  have hlength := length_le_written (style s.toList) s.toList
  rw [string_written_of_suits (suits_style s.toList) (Nat.lt_of_le_of_lt hlength hbound) hquote
    hapostrophe, String.ofList_toList]

end Toml

end WordMachine
