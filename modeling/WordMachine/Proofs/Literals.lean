import WordMachine.Literal
import WordMachine.Proofs.HexText

/-!
# Reading literals

A literal is read as the number that its digits write, if that number is below
`2 ^ 256`.  Hexadecimal digits are read in pairs as bytes and decimal ones from left to
right, but both readers stop at the same bound, however many zeros stand in front.  The
decimal one notices the bound as soon as it is passed, so that a text which goes on with
something else than a digit is then too big as well.
-/

namespace WordMachine

namespace Literal

open Numeral

/-- The text writes the number: in decimal digits, or behind one or two marks in
hexadecimal ones.  No digits write zero. -/
inductive Written : List Char → ℕ → Prop
  | decimal {cs : List Char} (h : IsNumeral 10 cs) : Written cs (value 10 cs)
  | hexadecimal {cs : List Char} (h : IsNumeral 16 (cs.map Char.toLower)) :
      Written ('0' :: 'x' :: cs) (value 16 (cs.map Char.toLower))
  | doublyMarked {cs : List Char} (h : IsNumeral 16 (cs.map Char.toLower)) :
      Written ('0' :: 'x' :: '0' :: 'x' :: cs) (value 16 (cs.map Char.toLower))

/-- The word with a given value, if there is one. -/
def ofValue (n : ℕ) : Except LiteralError Word :=
  if n < 2 ^ 256 then .ok (BitVec.ofNat 256 n) else .error (.outOfRange .stackValueTooBig)

theorem ofValue_eq_ok_iff {n : ℕ} {w : Word} : ofValue n = .ok w ↔ w.toNat = n := by
  have hw : w.toNat < 2 ^ 256 := w.isLt
  unfold ofValue
  split
  · next hlt =>
      rw [Except.ok.injEq, ← BitVec.toNat_inj, BitVec.toNat_ofNat, Nat.mod_eq_of_lt hlt, eq_comm]
  · next hge => exact ⟨nofun, fun h ↦ absurd (h ▸ hw) hge⟩

theorem ofValue_of_le {n : ℕ} (h : 2 ^ 256 ≤ n) :
    ofValue n = .error (.outOfRange .stackValueTooBig) :=
  if_neg (not_lt.mpr h)

/-! ## Decimal digits -/

theorem mem_digits_ten_iff {c : Char} : c ∈ digits 10 ↔ c.isDigit = true := by
  rw [mem_digits_iff (by omega)]
  constructor
  · rintro ⟨d, hd, rfl⟩
    rw [Nat.isDigit_digitChar, decide_eq_true hd]
  · intro h
    rw [Char.isDigit, Bool.and_eq_true, decide_eq_true_eq, decide_eq_true_eq] at h
    have hlower : 48 ≤ c.toNat := h.1
    have hupper : c.toNat ≤ 57 := h.2
    refine ⟨c.toNat - 48, by omega, ?_⟩
    apply Char.toNat_inj.mp
    rw [Nat.toNat_digitChar_of_lt_ten (by omega)]
    omega

theorem idxOf_of_mem_digits_ten {c : Char} (h : c ∈ digits 10) :
    alphabet.idxOf c = c.toNat - '0'.toNat := by
  obtain ⟨d, hd, rfl⟩ := (mem_digits_iff (by omega)).mp h
  rw [idxOf_digitChar (by omega)]
  exact (Nat.toNat_digitChar_sub_48_of_lt_ten hd).symm

section

variable (text : String) (seen rest : List Char) {ds : List Char}

theorem decimal_of_isDigit {c : Char} (hc : c.isDigit = true) (n : ℕ) :
    decimal text n (c :: rest) =
      if n * 10 + (c.toNat - '0'.toNat) < 2 ^ 256 then
        decimal text (n * 10 + (c.toNat - '0'.toNat)) rest
      else .error (.outOfRange .stackValueTooBig) :=
  if_pos hc

theorem decimal_of_not_isDigit {c : Char} (hc : ¬c.isDigit = true) (n : ℕ) :
    decimal text n (c :: rest) = .error (.notANumber text) :=
  if_neg hc

/-- One more digit behind those that have been read. -/
theorem decimal_cons {c : Char} (hc : c ∈ digits 10) :
    decimal text (value 10 seen) (c :: rest) =
      if value 10 (seen ++ [c]) < 2 ^ 256 then decimal text (value 10 (seen ++ [c])) rest
      else .error (.outOfRange .stackValueTooBig) := by
  rw [decimal_of_isDigit _ _ (mem_digits_ten_iff.mp hc), value_append, value_singleton,
    idxOf_of_mem_digits_ten hc, List.length_singleton, pow_one]

theorem decimal_append_of_lt (hds : IsNumeral 10 ds) (h : value 10 (seen ++ ds) < 2 ^ 256) :
    decimal text (value 10 seen) (ds ++ rest) = decimal text (value 10 (seen ++ ds)) rest := by
  -- The number so far is always the one that the digits seen write.
  induction ds generalizing seen with
  | nil => rw [List.nil_append, List.append_nil]
  | cons c ds ih =>
      rw [List.append_cons] at h
      have hnext := (value_le_append (by omega) (seen ++ [c]) ds).trans_lt h
      rw [List.cons_append, decimal_cons _ _ _ (hds c List.mem_cons_self), if_pos hnext,
        ih _ (fun d hd ↦ hds d (List.mem_cons_of_mem c hd)) h, List.append_cons seen c ds]

theorem decimal_append_of_le (hds : IsNumeral 10 ds) (hseen : value 10 seen < 2 ^ 256)
    (h : 2 ^ 256 ≤ value 10 (seen ++ ds)) :
    decimal text (value 10 seen) (ds ++ rest) = .error (.outOfRange .stackValueTooBig) := by
  induction ds generalizing seen with
  | nil =>
      rw [List.append_nil] at h
      exact absurd hseen (not_lt.mpr h)
  | cons c ds ih =>
      rw [List.append_cons] at h
      rw [List.cons_append, decimal_cons _ _ _ (hds c List.mem_cons_self)]
      split
      · next hnext => exact ih _ (fun d hd ↦ hds d (List.mem_cons_of_mem c hd)) hnext h
      · rfl

end

/-- The digits up to the first other character. -/
def leadingRow (cs : List Char) : List Char := cs.takeWhile (· ∈ digits 10)

theorem isNumeral_leadingRow (cs : List Char) : IsNumeral 10 (leadingRow cs) := by
  intro c hc
  exact of_decide_eq_true (List.all_eq_true.mp List.all_takeWhile c hc)

theorem exists_leadingRow_append {cs : List Char} (h : ¬IsNumeral 10 cs) :
    ∃ c rest, c ∉ digits 10 ∧ cs = leadingRow cs ++ c :: rest := by
  have hsplit := List.takeWhile_append_dropWhile (p := (· ∈ digits 10)) (l := cs)
  cases hrest : cs.dropWhile (· ∈ digits 10) with
  | nil =>
      rw [hrest, List.append_nil] at hsplit
      exact absurd (hsplit ▸ isNumeral_leadingRow cs) h
  | cons c rest =>
      have hc := List.head?_dropWhile_not (· ∈ digits 10) cs
      rw [hrest, List.head?_cons] at hc
      rw [hrest] at hsplit
      exact ⟨c, rest, by simpa using hc, hsplit.symm⟩

section

variable (text : String) {cs : List Char}

theorem decimal_of_isNumeral (h : IsNumeral 10 cs) :
    decimal text 0 cs = ofValue (value 10 cs) := by
  by_cases hlt : value 10 cs < 2 ^ 256
  · have hread := decimal_append_of_lt text [] [] h hlt
    rw [value_nil, List.append_nil, List.nil_append] at hread
    rw [ofValue, if_pos hlt, hread]
    rfl
  · have hread := decimal_append_of_le text [] [] h (Nat.two_pow_pos 256) (not_lt.mp hlt)
    rw [value_nil, List.append_nil] at hread
    rw [ofValue, if_neg hlt, hread]

theorem decimal_of_not_isNumeral (h : ¬IsNumeral 10 cs) :
    decimal text 0 cs =
      .error (if 2 ^ 256 ≤ value 10 (leadingRow cs) then .outOfRange .stackValueTooBig
        else .notANumber text) := by
  obtain ⟨c, rest, hc, hcs⟩ := exists_leadingRow_append h
  have hrow := isNumeral_leadingRow cs
  generalize leadingRow cs = row at hcs hrow
  subst hcs
  split
  · next hle => exact decimal_append_of_le text [] (c :: rest) hrow (Nat.two_pow_pos 256) hle
  · next hlt =>
      refine (decimal_append_of_lt text [] (c :: rest) hrow (not_le.mp hlt)).trans ?_
      exact decimal_of_not_isDigit text rest (mt mem_digits_ten_iff.mpr hc) _

end

/-! ## Hexadecimal digits -/

/-- Digits in pairs are those of bytes. -/
theorem exists_flatMap_byteDigits {cs : List Char} (h : IsNumeral 16 cs)
    (heven : cs.length % 2 = 0) : ∃ bytes : List UInt8, bytes.flatMap Hex.byteDigits = cs := by
  induction cs using List.twoStepInduction with
  | nil => exact ⟨[], rfl⟩
  | singleton c => cases heven
  | cons_cons high low rest ih _ =>
      obtain ⟨a, ha, rfl⟩ := (mem_digits_iff (by omega)).mp (h high List.mem_cons_self)
      obtain ⟨b, hb, rfl⟩ := (mem_digits_iff (by omega)).mp
        (h low (List.mem_cons_of_mem _ List.mem_cons_self))
      have hlength : (rest.length + 2) % 2 = 0 := heven
      obtain ⟨bytes, hbytes⟩ := ih
        (fun c hc ↦ h c (List.mem_cons_of_mem _ (List.mem_cons_of_mem _ hc))) (by omega)
      refine ⟨UInt8.ofNat (a * 16 + b) :: bytes, ?_⟩
      rw [List.flatMap_cons, Hex.byteDigits_ofNat ha hb, hbytes]
      rfl

section

variable {text : String}

/-- The digits behind the mark, in lower case. -/
def hexRow (text : String) : List Char := (Hex.unmarked text).toLower.toList

theorem hexRow_eq_map (text : String) :
    hexRow text = (Hex.unmarked text).toList.map Char.toLower :=
  Text.toList_toLower _

theorem exists_decodePadded (h : IsNumeral 16 (hexRow text)) :
    ∃ bytes, Hex.decodePadded text = .ok bytes ∧
      Word.accumulate 0 bytes = value 16 (hexRow text) := by
  have hsize : (Hex.unmarked text).utf8ByteSize = (hexRow text).length := by
    have hbytes := Hex.utf8ByteSize_ofList (hexRow_eq_map text ▸ h)
    rw [String.ofList_toList] at hbytes
    rw [hbytes, hexRow_eq_map, List.length_map]
  -- The zero in front of an odd number of digits adds nothing to the value.
  by_cases hodd : (Hex.unmarked text).utf8ByteSize % 2 = 1
  · have hpadded : IsNumeral 16 ('0' :: hexRow text) :=
      List.forall_mem_cons.mpr ⟨List.mem_cons_self, h⟩
    have hlength : ((hexRow text).length + 1) % 2 = 0 := by omega
    obtain ⟨bytes, hbytes⟩ := exists_flatMap_byteDigits hpadded hlength
    refine ⟨bytes, ?_, ?_⟩
    · rw [Hex.decodePadded_eq_ok_iff, if_pos hodd, Hex.encode, hbytes, ← String.toList_inj,
        String.toList_ofList, String.toList_append]
      rfl
    · rw [← Hex.value_flatMap_byteDigits, hbytes, value_zero_cons]
  · obtain ⟨bytes, hbytes⟩ := exists_flatMap_byteDigits h (by omega)
    refine ⟨bytes, ?_, ?_⟩
    · rw [Hex.decodePadded_eq_ok_iff, if_neg hodd, Hex.encode, hbytes, ← String.toList_inj,
        String.toList_ofList, String.toList_append]
      rfl
    · rw [← Hex.value_flatMap_byteDigits, hbytes]

theorem hexadecimal_of_isNumeral (h : IsNumeral 16 (hexRow text)) :
    hexadecimal text = ofValue (value 16 (hexRow text)) := by
  obtain ⟨bytes, hread, hvalue⟩ := exists_decodePadded h
  rw [hexadecimal, hread, ← hvalue]
  dsimp only
  by_cases hlt : Word.accumulate 0 bytes < 2 ^ 256
  · rw [Word.ofBytes_of_lt hlt, ofValue, if_pos hlt]
  · rw [Word.ofBytes_of_le (not_lt.mp hlt), ofValue, if_neg hlt]

theorem hexadecimal_of_not_isNumeral (h : ¬IsNumeral 16 (hexRow text)) :
    ∃ error, hexadecimal text = .error (.hex error) := by
  cases hread : Hex.decodePadded text with
  | error error =>
      refine ⟨error, ?_⟩
      rw [hexadecimal, hread]
  | ok bytes =>
      rw [hexRow_eq_map] at h
      exact absurd (Hex.isNumeral_of_decodePadded hread) h

end

/-! ## Whole literals -/

theorem not_isNumeral_of_mark {cs : List Char} : ¬IsNumeral 10 ('0' :: 'x' :: cs) := by
  intro h
  have hmark := h 'x' (List.mem_cons_of_mem _ List.mem_cons_self)
  exact absurd hmark (by decide)

theorem hexRow_of_isNumeral {cs : List Char} (h : IsNumeral 16 (cs.map Char.toLower)) :
    hexRow (String.ofList cs) = cs.map Char.toLower := by
  have hmark : 'x' ∉ cs := by
    intro hmem
    exact absurd (h _ (List.mem_map_of_mem hmem)) (by decide)
  rw [hexRow_eq_map, Hex.unmarked_of_notMem (by rwa [String.toList_ofList]), String.toList_ofList]

theorem hexRow_marked (cs : List Char) :
    hexRow (String.ofList ('0' :: 'x' :: cs)) = cs.map Char.toLower := by
  have hunmarked : Hex.unmarked (String.ofList ('0' :: 'x' :: cs)) = String.ofList cs := by
    rw [Hex.unmarked, String.toList_ofList]
    rfl
  rw [hexRow_eq_map, hunmarked, String.toList_ofList]

/-- Behind the first mark, what a second one is taken off from has to be digits. -/
theorem written_marked_iff {cs : List Char} {n : ℕ} :
    Written ('0' :: 'x' :: cs) n ↔
      IsNumeral 16 (hexRow (String.ofList cs)) ∧ value 16 (hexRow (String.ofList cs)) = n := by
  constructor
  · intro h
    cases h with
    | decimal h => exact absurd h not_isNumeral_of_mark
    | hexadecimal h =>
        rw [hexRow_of_isNumeral h]
        exact ⟨h, rfl⟩
    | doublyMarked h =>
        rw [hexRow_marked]
        exact ⟨h, rfl⟩
  · rintro ⟨h, rfl⟩
    by_cases hmark : ∃ rest, cs = '0' :: 'x' :: rest
    · obtain ⟨rest, rfl⟩ := hmark
      rw [hexRow_marked] at h ⊢
      exact .doublyMarked h
    · have hplain : hexRow (String.ofList cs) = cs.map Char.toLower := by
        rw [hexRow_eq_map, Hex.unmarked, String.toList_ofList]
        split
        · next rest => exact absurd ⟨rest, rfl⟩ hmark
        · rw [String.toList_ofList]
      rw [hplain] at h ⊢
      exact .hexadecimal h

theorem not_written_of_plain {t : List Char} (h : ¬IsNumeral 10 t) (hmark : ¬['0', 'x'] <+: t)
    (n : ℕ) : ¬Written t n := by
  intro hwritten
  cases hwritten with
  | decimal hrow => exact h hrow
  | @hexadecimal cs _ => exact hmark ⟨cs, rfl⟩
  | @doublyMarked cs _ => exact hmark ⟨_, rfl⟩

section

variable {s : String} {t : List Char} (ht : Text.trimmedChars s.toList = t)
include ht

theorem read_of_minus (h : t.head? = some '-') :
    read s = .error (.outOfRange .stackValueTooSmall) := by
  obtain ⟨rest, rfl⟩ := List.head?_eq_some_iff.mp h
  rw [read, ht]
  rfl

theorem read_of_mark {cs : List Char} (h : t = '0' :: 'x' :: cs) :
    read s = hexadecimal (String.ofList cs) := by
  subst h
  rw [read, ht]
  rfl

theorem read_of_plain (hminus : t.head? ≠ some '-') (hmark : ¬['0', 'x'] <+: t) :
    read s = decimal (String.ofList t) 0 t := by
  rw [read, ht]
  split
  · exact absurd rfl hminus
  · next rest => exact absurd ⟨rest, rfl⟩ hmark
  · rfl

/-- What is written is read, up to the bound. -/
theorem read_of_written {n : ℕ} (h : Written t n) : read s = ofValue n := by
  by_cases hmark : ['0', 'x'] <+: t
  · obtain ⟨cs, rfl⟩ := hmark
    obtain ⟨hrow, rfl⟩ := written_marked_iff.mp h
    rw [read_of_mark ht rfl, hexadecimal_of_isNumeral hrow]
  · cases h with
    | decimal h =>
        have hminus : t.head? ≠ some '-' := by
          intro hhead
          exact absurd (h '-' (List.mem_of_head? hhead)) (by decide)
        rw [read_of_plain ht hminus hmark, decimal_of_isNumeral _ h]
    | @hexadecimal cs h => exact absurd ⟨cs, rfl⟩ hmark
    | @doublyMarked cs h => exact absurd ⟨_, rfl⟩ hmark

theorem read_of_mark_of_not_written (h : ∀ n, ¬Written t n) (hmark : ['0', 'x'] <+: t) :
    ∃ error, read s = .error (.hex error) := by
  obtain ⟨cs, rfl⟩ := hmark
  rw [read_of_mark ht rfl]
  apply hexadecimal_of_not_isNumeral
  intro hrow
  exact h _ (written_marked_iff.mpr ⟨hrow, rfl⟩)

theorem read_of_plain_of_not_written (h : ∀ n, ¬Written t n) (hminus : t.head? ≠ some '-')
    (hmark : ¬['0', 'x'] <+: t) :
    read s = .error (if 2 ^ 256 ≤ value 10 (leadingRow t) then .outOfRange .stackValueTooBig
      else .notANumber (String.ofList t)) := by
  rw [read_of_plain ht hminus hmark]
  apply decimal_of_not_isNumeral
  intro hrow
  exact h _ (.decimal hrow)

theorem exists_error_of_not_written (h : ∀ n, ¬Written t n) : ∃ error, read s = .error error := by
  by_cases hminus : t.head? = some '-'
  · exact ⟨_, read_of_minus ht hminus⟩
  · by_cases hmark : ['0', 'x'] <+: t
    · obtain ⟨error, hread⟩ := read_of_mark_of_not_written ht h hmark
      exact ⟨_, hread⟩
    · exact ⟨_, read_of_plain_of_not_written ht h hminus hmark⟩

theorem read_eq_ok_iff {w : Word} : read s = .ok w ↔ Written t w.toNat := by
  constructor
  · intro hread
    by_cases hwritten : ∃ n, Written t n
    · obtain ⟨n, hn⟩ := hwritten
      rw [read_of_written ht hn] at hread
      rwa [ofValue_eq_ok_iff.mp hread]
    · obtain ⟨error, herror⟩ := exists_error_of_not_written ht (not_exists.mp hwritten)
      rw [herror] at hread
      cases hread
  · intro h
    exact (read_of_written ht h).trans (ofValue_eq_ok_iff.mpr rfl)

/-- A literal is a word exactly if it writes the word's number, and too big if it writes a
larger one.  What writes no number is too small with a minus in front, bad hexadecimal text
with a mark, and otherwise not a number, unless the digits at its front are too big
already. -/
theorem read_exact :
    (∀ w, read s = .ok w ↔ Written t w.toNat) ∧
      (∀ n, Written t n → 2 ^ 256 ≤ n → read s = .error (.outOfRange .stackValueTooBig)) ∧
      (t.head? = some '-' → read s = .error (.outOfRange .stackValueTooSmall)) ∧
      ((∀ n, ¬Written t n) → ['0', 'x'] <+: t → ∃ error, read s = .error (.hex error)) ∧
      ((∀ n, ¬Written t n) → t.head? ≠ some '-' → ¬['0', 'x'] <+: t →
        read s = .error (if 2 ^ 256 ≤ value 10 (leadingRow t) then .outOfRange .stackValueTooBig
          else .notANumber (String.ofList t))) := by
  refine ⟨?_, ?_, ?_, ?_, ?_⟩
  · exact fun w ↦ read_eq_ok_iff ht
  · intro n hn hbig
    exact (read_of_written ht hn).trans (ofValue_of_le hbig)
  · exact read_of_minus ht
  · exact read_of_mark_of_not_written ht
  · exact read_of_plain_of_not_written ht

end

/-- One literal for each of the cases: blanks and two marks around a number, a number one
above the largest word, a minus, and bad characters with and without a mark. -/
theorem read_exact_samples :
    read " 0x0x1F" = .ok 31#256 ∧
      read (String.ofList ('0' :: 'x' :: '1' :: List.replicate 64 '0')) =
        .error (.outOfRange .stackValueTooBig) ∧
      read "-1" = .error (.outOfRange .stackValueTooSmall) ∧
      (∃ error, read "0x1g" = .error (.hex error)) ∧
      read "4x2" = .error (.notANumber "4x2") := by
  have hmarks : Text.trimmedChars " 0x0x1F".toList = ['0', 'x', '0', 'x', '1', 'F'] := rfl
  have hlong : Text.trimmedChars
      (String.ofList ('0' :: 'x' :: '1' :: List.replicate 64 '0')).toList =
        '0' :: 'x' :: '1' :: List.replicate 64 '0' := by
    rw [String.toList_ofList]
    rfl
  have hminus : Text.trimmedChars "-1".toList = ['-', '1'] := rfl
  have hhex : Text.trimmedChars "0x1g".toList = ['0', 'x', '1', 'g'] := rfl
  have hother : Text.trimmedChars "4x2".toList = ['4', 'x', '2'] := rfl
  refine ⟨?_, ?_, ?_, ?_, ?_⟩
  · exact ((read_exact hmarks).1 31#256).mpr (.doublyMarked (by decide))
  · exact (read_exact hlong).2.1 _ (.hexadecimal (by decide)) (by decide)
  · exact (read_exact hminus).2.2.1 rfl
  · refine (read_exact hhex).2.2.2.1 ?_ ⟨['1', 'g'], rfl⟩
    intro n h
    cases h with
    | decimal h => exact absurd h not_isNumeral_of_mark
    | hexadecimal h => exact absurd h (by decide)
  · exact (read_exact hother).2.2.2.2 (not_written_of_plain (by decide) (by decide)) (by decide)
      (by decide)

/-- Digits that pass the bound, with a bad character behind them. -/
def overlong : List Char := List.replicate 78 '9' ++ ['x']

/-- The text writes no number and has neither a minus nor a mark, yet it is not refused as a
text that is no number. -/
theorem read_overlong_ne_notANumber :
    Text.trimmedChars (String.ofList overlong).toList = overlong ∧
      (∀ n, ¬Written overlong n) ∧ overlong.head? ≠ some '-' ∧ ¬['0', 'x'] <+: overlong ∧
      ∀ text, read (String.ofList overlong) ≠ .error (.notANumber text) := by
  have htrimmed : Text.trimmedChars (String.ofList overlong).toList = overlong := by
    rw [String.toList_ofList]
    rfl
  have hminus : overlong.head? ≠ some '-' := by decide
  have hmark : ¬['0', 'x'] <+: overlong := by decide
  have hwritten := not_written_of_plain (t := overlong) (by decide) hmark
  have hbig : 2 ^ 256 ≤ value 10 (leadingRow overlong) := by decide +kernel
  refine ⟨htrimmed, hwritten, hminus, hmark, ?_⟩
  intro text
  rw [read_of_plain_of_not_written htrimmed hwritten hminus hmark, if_pos hbig]
  exact nofun

end Literal

end WordMachine
