import WordMachine.Proofs.Numerals
import WordMachine.Proofs.TomlStrings
import WordMachine.Toml.Document

/-!
# Lines that are written can be read

A line with a key by itself and a number or a string as its value adds this value
to the table.  The digits of a number could also begin a date or a time, but these
have a mark among the digits where a number has another digit or ends its line.
-/

namespace WordMachine

namespace Toml

/-! ## Numbers -/

theorem ne_of_isDigit {c d : Char} (hc : c.isDigit = true) (hd : d.isDigit = false) : c ≠ d := by
  rintro rfl
  exact absurd (hc.symm.trans hd) (by decide)

theorem digit?_of_isDigit {c : Char} (h : c.isDigit = true) :
    digit? 10 c = some (c.toNat - '0'.toNat) := by
  have hrange : '0' ≤ c ∧ c ≤ '9' := by
    rw [Char.isDigit, Bool.and_eq_true, decide_eq_true_eq, decide_eq_true_eq] at h
    exact h
  have hupper : c.toNat ≤ 57 := hrange.2
  have hlt : c.toNat - '0'.toNat < 10 := by
    have hzero : '0'.toNat = 48 := rfl
    omega
  rw [digit?, Hex.digitValue?, if_pos hrange]
  exact if_pos (decide_eq_true hlt)

theorem digitsFrom_append {ds : List Char} (h : ∀ d ∈ ds, d.isDigit = true) (value length : Nat)
    (rest : List Char) :
    digitsFrom 10 value length (ds ++ '\n' :: rest) =
      some ⟨Nat.ofDigitChars 10 ds value, length + ds.length, '\n' :: rest⟩ := by
  induction ds generalizing value length with
  | nil => rfl
  | cons d ds ih =>
      have hd := h d List.mem_cons_self
      rw [List.cons_append, digitsFrom]
      · rw [digit?_of_isDigit hd]
        dsimp only
        rw [ih fun c hc ↦ h c (List.mem_cons_of_mem d hc), Nat.ofDigitChars_cons, Nat.mul_comm,
          List.length_cons, Nat.add_right_comm, Nat.add_assoc]
      · rintro c cs rfl
        exact absurd hd (by decide)

theorem exists_toDigits (n : Nat) :
    ∃ d ds, Nat.toDigits 10 n = d :: ds ∧ ∀ c ∈ d :: ds, c.isDigit = true := by
  obtain ⟨d, ds, hds⟩ : ∃ d ds, Nat.toDigits 10 n = d :: ds :=
    List.exists_cons_of_ne_nil Nat.toDigits_ne_nil
  refine ⟨d, ds, hds, ?_⟩
  intro c hc
  rw [← hds] at hc
  exact Nat.isDigit_of_mem_toDigits (by decide) (by decide) hc

theorem sign_cons {d : Char} (h : d.isDigit = true) (cs : List Char) :
    sign (d :: cs) = (false, d :: cs) := by
  rw [sign]
  · rintro _ ⟨⟩
    exact absurd h (by decide)
  · rintro _ ⟨⟩
    exact absurd h (by decide)

theorem afterWhole_line {n : Nat} (h : n < integerBound) (length : Nat) (rest : List Char) :
    afterWhole false ⟨n, length, '\n' :: rest⟩ = some (.integer n, '\n' :: rest) := by
  have hrange : -(integerBound : Int) ≤ (n : Int) ∧ (n : Int) < integerBound := by omega
  unfold afterWhole
  simp [integer?, hrange]

theorem number_of_decimal {d : Char} {cs : List Char} {row : DigitRow} (hd : d.isDigit = true)
    (hbase : d = '0' → cs.head? = some '\n') (hrow : decimal (d :: cs) = some row) :
    number (d :: cs) = afterWhole false row := by
  unfold number
  split
  · rename_i heq
    cases heq
    cases hbase rfl
  · rename_i heq
    cases heq
    cases hbase rfl
  · rename_i heq
    cases heq
    cases hbase rfl
  · rw [sign_cons hd]
    dsimp only
    split
    · rename_i heq
      cases heq
      exact absurd hd (by decide)
    · rename_i heq
      cases heq
      exact absurd hd (by decide)
    · rw [hrow]
      rfl

theorem decimal_cons {d : Char} (hd : d.isDigit = true) (hzero : d ≠ '0') (cs : List Char) :
    decimal (d :: cs) = digitsFrom 10 (d.toNat - '0'.toNat) 1 cs := by
  rw [decimal]
  · rw [digits, digit?_of_isDigit hd]
    rfl
  · rintro _ ⟨⟩
    exact hzero rfl

theorem number_toDigits {n : Nat} (h : n < integerBound) (rest : List Char) :
    number (Nat.toDigits 10 n ++ '\n' :: rest) = some (.integer n, '\n' :: rest) := by
  obtain ⟨d, ds, hds, hdigit⟩ := exists_toDigits n
  have hd := hdigit d List.mem_cons_self
  have hvalue : Nat.ofDigitChars 10 (d :: ds) 0 = n := by
    rw [← hds]
    exact Nat.ofDigitChars_ten_toDigits
  by_cases hzero : d = '0'
  · have hhead : (Nat.toDigits 10 n).head? = some '0' := by rw [hds, hzero, List.head?_cons]
    have hn : n = 0 := Numeral.eq_zero_of_head?_toDigits (by omega) hhead
    subst hn
    exact (number_of_decimal rfl (fun _ ↦ rfl) rfl).trans (afterWhole_line h 1 rest)
  · have hrow : decimal (d :: (ds ++ '\n' :: rest)) = some ⟨n, 1 + ds.length, '\n' :: rest⟩ := by
      rw [Nat.ofDigitChars_cons, Nat.mul_zero, Nat.zero_add] at hvalue
      rw [decimal_cons hd hzero,
        digitsFrom_append fun c hc ↦ hdigit c (List.mem_cons_of_mem d hc), hvalue]
    rw [hds, List.cons_append, number_of_decimal hd (fun hd ↦ absurd hd hzero) hrow]
    exact afterWhole_line h _ rest

/-! ## Values -/

/-- Behind digits and the end of their line, no mark of a date or a time stands where
one has to. -/
theorem getElem?_ne_of_all_isDigit {ds rest : List Char} {i : Nat} {c : Char}
    (hds : ∀ d ∈ ds, d.isDigit = true) (hdigit : c.isDigit = false) (hline : c ≠ '\n')
    (hall : ((ds ++ '\n' :: rest).take i).all Char.isDigit = true) :
    (ds ++ '\n' :: rest)[i]? ≠ some c := by
  intro hget
  rcases Nat.lt_trichotomy i ds.length with hlt | rfl | hgt
  · rw [List.getElem?_append_left hlt] at hget
    exact ne_of_isDigit (hds c (List.mem_of_getElem? hget)) hdigit rfl
  · rw [List.getElem?_append_right (Nat.le_refl _), Nat.sub_self] at hget
    exact hline (Option.some.inj hget).symm
  · have hmem : '\n' ∈ (ds ++ '\n' :: rest).take i := by
      rw [List.take_append, List.mem_append]
      right
      obtain ⟨k, hk⟩ : ∃ k, i - ds.length = k + 1 := ⟨i - ds.length - 1, by omega⟩
      rw [hk]
      exact List.mem_cons_self
    exact absurd (List.all_eq_true.mp hall _ hmem) (by decide)

theorem scalar_digits {bound : Nat} {d : Char} {ds rest : List Char}
    (h : ∀ c ∈ d :: ds, c.isDigit = true) :
    scalar bound (d :: ds ++ '\n' :: rest) = number (d :: ds ++ '\n' :: rest) := by
  have hd := h d List.mem_cons_self
  have hdate : beginsDate (d :: ds ++ '\n' :: rest) = false := by
    apply Bool.eq_false_iff.mpr
    intro hbegins
    rw [beginsDate, Bool.and_eq_true, decide_eq_true_eq] at hbegins
    exact getElem?_ne_of_all_isDigit h (by decide) (by decide) hbegins.1 hbegins.2
  have htime : beginsTime (d :: ds ++ '\n' :: rest) = false := by
    apply Bool.eq_false_iff.mpr
    intro hbegins
    rw [beginsTime, Bool.and_eq_true, decide_eq_true_eq] at hbegins
    exact getElem?_ne_of_all_isDigit h (by decide) (by decide) hbegins.1 hbegins.2
  have hquote : ¬(d = '"' ∨ d = '\'') := by
    rintro (rfl | rfl)
    · exact absurd hd (by decide)
    · exact absurd hd (by decide)
  rw [List.cons_append, scalar]
  · rw [if_neg hquote, ← List.cons_append, hdate, htime]
    rfl
  · rintro _ rfl
    exact absurd hd (by decide)
  · rintro _ rfl
    exact absurd hd (by decide)

theorem scalar_toString {bound n : Nat} (h : n < integerBound) (rest : List Char) :
    scalar bound ((toString n).toList ++ '\n' :: rest) = some (.integer n, '\n' :: rest) := by
  rw [Nat.toString_eq_ofList_toDigits, String.toList_ofList, ← number_toDigits h]
  obtain ⟨d, ds, hds, hdigit⟩ := exists_toDigits n
  rw [hds]
  exact scalar_digits hdigit

theorem quoted_eq_cons (s : String) :
    ∃ c cs, (quoted s).toList = c :: cs ∧ (c = '"' ∨ c = '\'') := by
  rw [quoted, String.toList_ofList]
  cases style s.toList with
  | basic => exact ⟨_, _, rfl, .inl rfl⟩
  | literal => exact ⟨_, _, rfl, .inr rfl⟩
  | longBasic => exact ⟨_, _, rfl, .inl rfl⟩
  | longLiteral => exact ⟨_, _, rfl, .inr rfl⟩

theorem scalar_quoted {bound : Nat} {s : String} (h : (quoted s).toList.length < bound)
    (rest : List Char) :
    scalar bound ((quoted s).toList ++ '\n' :: rest) = some (.string s, '\n' :: rest) := by
  obtain ⟨c, cs, hcs, hc⟩ := quoted_eq_cons s
  have hstring : string bound (c :: (cs ++ '\n' :: rest)) = some (s, '\n' :: rest) := by
    rw [← List.cons_append, ← hcs]
    exact string_quoted h (by simp) (by simp)
  rw [hcs, List.cons_append, scalar]
  · rw [if_pos hc, hstring]
    rfl
  · rintro _ rfl
    exact absurd hc (by decide)
  · rintro _ rfl
    exact absurd hc (by decide)

/-- Begins neither with a blank nor with a list or a table between braces. -/
def Plain (cs : List Char) : Prop :=
  ∃ c more, cs = c :: more ∧ isBlank c = false ∧ c ≠ '[' ∧ c ≠ '\x7b'

theorem plain_toString (n : Nat) : Plain (toString n).toList := by
  rw [Nat.toString_eq_ofList_toDigits, String.toList_ofList]
  obtain ⟨d, ds, hds, hdigit⟩ := exists_toDigits n
  have hd := hdigit d List.mem_cons_self
  refine ⟨d, ds, hds, ?_, ne_of_isDigit hd (by decide), ne_of_isDigit hd (by decide)⟩
  simp [isBlank, ne_of_isDigit hd (d := ' ') (by decide), ne_of_isDigit hd (d := '\t') (by decide)]

theorem plain_quoted (s : String) : Plain (quoted s).toList := by
  obtain ⟨c, cs, hcs, rfl | rfl⟩ := quoted_eq_cons s
  · exact ⟨_, cs, hcs, by decide, by decide, by decide⟩
  · exact ⟨_, cs, hcs, by decide, by decide, by decide⟩

theorem value_of_plain {bound : Nat} {v : List Char} (h : Plain v) (rest : List Char) :
    value bound maxDepth (skipBlanks (' ' :: (v ++ rest))) = scalar bound (v ++ rest) := by
  obtain ⟨c, more, rfl, hblank, hlist, htable⟩ := h
  have hskip : skipBlanks (' ' :: (c :: more ++ rest)) = c :: more ++ rest := by
    rw [skipBlanks, List.dropWhile_cons_of_pos (by decide)]
    exact skipBlanks_cons hblank _
  rw [hskip, List.cons_append, maxDepth, value]
  · rintro _ ⟨⟩
    exact hlist rfl
  · rintro _ ⟨⟩
    exact htable rfl

/-! ## Lines -/

theorem isBlank_of_isKeyChar {c : Char} (h : isKeyChar c = true) : isBlank c = false := by
  apply Bool.eq_false_iff.mpr
  intro hblank
  rw [isBlank, decide_eq_true_eq] at hblank
  rcases hblank with rfl | rfl
  · exact absurd h (by decide)
  · exact absurd h (by decide)

/-- A key by itself and its value. -/
def line (name v : List Char) : List Char := name ++ [' ', '=', ' '] ++ v ++ ['\n']

theorem keyPath_line {bound : Nat} {name : List Char} (hne : name ≠ [])
    (hname : name.all isKeyChar = true) (more : List Char) :
    keyPath bound maxDepth (name ++ ' ' :: '=' :: more) =
      some ([], String.ofList name, '=' :: more) := by
  have hchars := List.all_eq_true.mp hname
  have htake : (name ++ ' ' :: '=' :: more).takeWhile isKeyChar = name := by
    rw [List.takeWhile_append_of_pos hchars, List.takeWhile_cons_of_neg (by decide),
      List.append_nil]
  have hdrop : (name ++ ' ' :: '=' :: more).dropWhile isKeyChar = ' ' :: '=' :: more := by
    rw [List.dropWhile_append_of_pos hchars, List.dropWhile_cons_of_neg (by decide)]
  obtain ⟨c, name, rfl⟩ := List.exists_cons_of_ne_nil hne
  have hc := List.all_eq_true.mp hname c List.mem_cons_self
  have hkey : key bound (c :: name ++ ' ' :: '=' :: more) =
      some (String.ofList (c :: name), ' ' :: '=' :: more) := by
    rw [List.cons_append] at htake hdrop ⊢
    rw [key]
    · rw [htake, hdrop]
    · rintro _ ⟨⟩
      exact absurd hc (by decide)
    · rintro _ ⟨⟩
      exact absurd hc (by decide)
  have hstart : skipBlanks (c :: name ++ ' ' :: '=' :: more) = c :: name ++ ' ' :: '=' :: more :=
    skipBlanks_cons (isBlank_of_isKeyChar hc) _
  have hblank : skipBlanks (' ' :: '=' :: more) = '=' :: more := rfl
  rw [maxDepth, keyPath, hstart, hkey]
  simp [hblank]

theorem entry_line {bound : Nat} {name v rest : List Char} {found : TomlValue} (hne : name ≠ [])
    (hname : name.all isKeyChar = true) (hplain : Plain v)
    (hscalar : scalar bound (v ++ '\n' :: rest) = some (found, '\n' :: rest)) :
    entry bound (line name v ++ rest) = some ([], String.ofList name, found, rest) := by
  have hform : line name v ++ rest = name ++ ' ' :: '=' :: ' ' :: (v ++ '\n' :: rest) := by
    simp [line]
  have hend : lineEnd? ('\n' :: rest) = some rest := rfl
  rw [hform, entry, keyPath_line hne hname]
  simp [value_of_plain hplain, hscalar, hend]

theorem linesFrom_line {bound rounds : Nat} {t : TomlTable} {name v rest : List Char}
    {found : TomlValue} (hne : name ≠ []) (hname : name.all isKeyChar = true)
    (hplain : Plain v)
    (hscalar : scalar bound (v ++ '\n' :: rest) = some (found, '\n' :: rest))
    (hnew : t.lookup (String.ofList name) = none) :
    linesFrom bound (rounds + 1) t [] (line name v ++ rest) =
      linesFrom bound rounds ((String.ofList name, found) :: t) [] rest := by
  have hentry := entry_line hne hname hplain hscalar
  obtain ⟨c, name, rfl⟩ := List.exists_cons_of_ne_nil hne
  have hc := List.all_eq_true.mp hname c List.mem_cons_self
  have hform : line (c :: name) v ++ rest = c :: (line name v ++ rest) := rfl
  have hadd : t.change? (·.addDotted? (String.ofList (c :: name)) found []) [] =
      some ((String.ofList (c :: name), found) :: t) := by
    rw [TomlTable.change?, TomlTable.addDotted?, TomlTable.add?, hnew]
    rfl
  rw [hform] at hentry ⊢
  rw [linesFrom, skipBlanks_cons (isBlank_of_isKeyChar hc)]
  split
  · rename_i heq
    cases heq
  · rename_i heq
    obtain rfl := (List.cons.inj heq).1
    exact absurd hc (by decide)
  · rename_i heq
    obtain rfl := (List.cons.inj heq).1
    exact absurd hc (by decide)
  · rename_i heq
    cases heq
    have hcomment : ¬(c = '#' ∨ c = '\n' ∨ c = '\r') := by
      rintro (rfl | rfl | rfl)
      · exact absurd hc (by decide)
      · exact absurd hc (by decide)
      · exact absurd hc (by decide)
    rw [if_neg hcomment, hentry]
    exact congrArg (·.bind fun t ↦ linesFrom bound rounds t [] rest) hadd

end Toml

end WordMachine
