import WordMachine.Command.Session
import WordMachine.Proofs.BytesRoundTrip
import WordMachine.Proofs.Numerals

/-!
# Reading hexadecimal text

A text is read as the bytes whose digits it writes, in either case.  The readers of
fixtures and of program arguments differ in two things only: the first puts a zero in
front of an odd number of digits, where the second gives up, and the second ignores
blanks around the text.  Both refuse a length by counting bytes, but a text in which
characters and bytes differ in number has a character that is no digit.
-/

namespace WordMachine

namespace Text

/-! ## Texts without blanks -/

section

variable {cs : List Char} (h : ∀ c ∈ cs, isBlank c = false)
include h

theorem dropWhile_isBlank_of_forall : cs.dropWhile isBlank = cs := by
  cases cs with
  | nil => rfl
  | cons c rest => rw [List.dropWhile_cons_of_neg (Bool.eq_false_iff.mp (h c List.mem_cons_self))]

theorem trimmedChars_of_forall : trimmedChars cs = cs := by
  have hreverse : ∀ c ∈ cs.reverse, isBlank c = false := by
    intro c hc
    exact h c (List.mem_reverse.mp hc)
  rw [trimmedChars, dropWhile_isBlank_of_forall h, dropWhile_isBlank_of_forall hreverse,
    List.reverse_reverse]

end

theorem toList_toLower (text : String) : text.toLower.toList = text.toList.map Char.toLower :=
  String.toList_map

theorem isBlank_of_mem_digits {base : ℕ} {c : Char} (h : c ∈ Numeral.digits base) :
    isBlank c = false := by
  have hall : Numeral.alphabet.all (isBlank · == false) = true := rfl
  exact beq_iff_eq.mp (List.all_eq_true.mp hall c (List.mem_of_mem_take h))

end Text

namespace Hex

open Numeral

/-! ## Digits -/

/-- No character outside the first 128 is a digit in either case. -/
theorem toNat_lt_of_toLower_mem {c : Char} (h : c.toLower ∈ alphabet) : c.toNat < 128 := by
  have hall : alphabet.all (·.toNat < 128) = true := rfl
  have hlower := of_decide_eq_true (List.all_eq_true.mp hall _ h)
  unfold Char.toLower at hlower
  split at hlower
  · next hupper =>
      have hle : c.toNat ≤ 90 := hupper.2
      omega
  · exact hlower

theorem toNat_lt_of_digitValue? {c : Char} {d : ℕ} (h : digitValue? c = some d) :
    c.toNat < 128 := by
  unfold digitValue? at h
  split at h
  · next hdigit =>
      have hle : c.toNat ≤ 57 := hdigit.2
      omega
  · split at h
    · next hletter =>
        have hle : c.toNat ≤ 102 := hletter.2
        omega
    · split at h
      · next hletter =>
          have hle : c.toNat ≤ 70 := hletter.2
          omega
      · cases h

theorem digitValue?_ofNat : ∀ n < 128, digitValue? (Char.ofNat n) =
    if (Char.ofNat n).toLower ∈ alphabet then some (alphabet.idxOf (Char.ofNat n).toLower)
    else none := by
  decide +kernel

/-- A digit is read as its place in the alphabet, after it has been lowered. -/
theorem digitValue?_eq (c : Char) :
    digitValue? c =
      if c.toLower ∈ alphabet then some (alphabet.idxOf c.toLower) else none := by
  by_cases hlt : c.toNat < 128
  · have hvalue := digitValue?_ofNat c.toNat hlt
    rwa [Char.ofNat_toNat] at hvalue
  · rw [if_neg (mt toNat_lt_of_toLower_mem hlt)]
    cases hvalue : digitValue? c with
    | none => rfl
    | some d => exact absurd (toNat_lt_of_digitValue? hvalue) hlt

theorem digitValue?_eq_some_iff {c : Char} {d : ℕ} :
    digitValue? c = some d ↔ d < 16 ∧ Nat.digitChar d = c.toLower := by
  have hmem : c.toLower ∈ alphabet ↔ ∃ d < 16, Nat.digitChar d = c.toLower :=
    mem_digits_iff (Nat.le_refl 16)
  rw [digitValue?_eq]
  constructor
  · intro h
    split at h
    · next hdigit =>
        obtain ⟨e, he, hchar⟩ := hmem.mp hdigit
        rw [← hchar, idxOf_digitChar he] at h
        cases h
        exact ⟨he, hchar⟩
    · cases h
  · rintro ⟨hd, hchar⟩
    rw [if_pos (hmem.mpr ⟨d, hd, hchar⟩), ← hchar, idxOf_digitChar hd]

theorem digitAt_eq_ok_iff {position : ℕ} {c : Char} {d : ℕ} :
    digitAt position c = .ok d ↔ d < 16 ∧ Nat.digitChar d = c.toLower := by
  rw [← digitValue?_eq_some_iff, digitAt]
  cases digitValue? c with
  | none => exact ⟨nofun, nofun⟩
  | some value =>
      rw [Except.ok.injEq, Option.some.injEq]

/-! ## Pairs of digits -/

theorem decodeFrom_pair_eq_ok_iff {position : ℕ} {high low : Char} {rest : List Char}
    {bytes : List UInt8} :
    decodeFrom position (high :: low :: rest) = .ok bytes ↔
      ∃ a b tail, digitAt position high = .ok a ∧ digitAt (position + 1) low = .ok b ∧
        decodeFrom (position + 2) rest = .ok tail ∧ UInt8.ofNat (a * 16 + b) :: tail = bytes := by
  rw [decodeFrom]
  cases digitAt position high with
  | error e => exact ⟨nofun, nofun⟩
  | ok a =>
      cases digitAt (position + 1) low with
      | error e => exact ⟨nofun, nofun⟩
      | ok b =>
          cases decodeFrom (position + 2) rest with
          | error e => exact ⟨nofun, nofun⟩
          | ok tail =>
              constructor
              · rintro ⟨⟩
                exact ⟨a, b, tail, rfl, rfl, rfl, rfl⟩
              · rintro ⟨_, _, _, ⟨⟩, ⟨⟩, ⟨⟩, rfl⟩
                rfl

theorem byteDigits_ofNat {a b : ℕ} (ha : a < 16) (hb : b < 16) :
    byteDigits (UInt8.ofNat (a * 16 + b)) = [Nat.digitChar a, Nat.digitChar b] := by
  have hbyte : (UInt8.ofNat (a * 16 + b)).toNat = a * 16 + b :=
    UInt8.toNat_ofNat_of_lt' (by change _ < 256; omega)
  have hhigh : (a * 16 + b) / 16 = a := by omega
  have hlow : (a * 16 + b) % 16 = b := by omega
  rw [byteDigits, hbyte, hhigh, hlow]

theorem flatMap_of_decodeFrom {position : ℕ} {cs : List Char} {bytes : List UInt8}
    (h : decodeFrom position cs = .ok bytes) : bytes.flatMap byteDigits = cs.map Char.toLower := by
  induction position, cs using decodeFrom.induct generalizing bytes with
  | case1 position =>
      cases h
      rfl
  | case2 position c =>
      rw [decodeFrom] at h
      cases hdigit : digitAt position c with
      | error e =>
          rw [hdigit] at h
          cases h
      | ok d =>
          rw [hdigit] at h
          cases h
  | case3 position high low rest ih =>
      obtain ⟨a, b, tail, hhigh, hlow, hrest, rfl⟩ := decodeFrom_pair_eq_ok_iff.mp h
      obtain ⟨ha, hhigh⟩ := digitAt_eq_ok_iff.mp hhigh
      obtain ⟨hb, hlow⟩ := digitAt_eq_ok_iff.mp hlow
      rw [List.flatMap_cons, byteDigits_ofNat ha hb, ih hrest, hhigh, hlow]
      rfl

theorem decodeFrom_of_flatMap {position : ℕ} {cs : List Char} {bytes : List UInt8}
    (h : bytes.flatMap byteDigits = cs.map Char.toLower) : decodeFrom position cs = .ok bytes := by
  induction bytes generalizing position cs with
  | nil =>
      rw [List.flatMap_nil] at h
      rw [List.map_eq_nil_iff.mp h.symm]
      rfl
  | cons b bytes ih =>
      have hlt : b.toNat < 256 := b.toNat_lt
      rw [List.flatMap_cons] at h
      obtain ⟨high, behind, rfl, hhigh, hbehind⟩ := List.map_eq_cons_iff.mp h.symm
      obtain ⟨low, rest, rfl, hlow, hrest⟩ := List.map_eq_cons_iff.mp hbehind
      have hbyte : b.toNat / 16 * 16 + b.toNat % 16 = b.toNat := by omega
      apply decodeFrom_pair_eq_ok_iff.mpr
      refine ⟨b.toNat / 16, b.toNat % 16, bytes, ?_, ?_, ih hrest.symm, ?_⟩
      · exact digitAt_eq_ok_iff.mpr ⟨by omega, hhigh.symm⟩
      · exact digitAt_eq_ok_iff.mpr ⟨by omega, hlow.symm⟩
      · rw [hbyte, UInt8.ofNat_toNat]

/-! ## What is written -/

theorem length_flatMap_byteDigits (bytes : List UInt8) :
    (bytes.flatMap byteDigits).length = 2 * bytes.length := by
  induction bytes with
  | nil => rfl
  | cons b bytes ih =>
      rw [List.flatMap_cons, List.length_append, ih, List.length_cons]
      change 2 + _ = _
      omega

theorem isNumeral_flatMap_byteDigits (bytes : List UInt8) :
    IsNumeral 16 (bytes.flatMap byteDigits) := by
  intro c hc
  obtain ⟨b, -, hc⟩ := List.mem_flatMap.mp hc
  have hlt : b.toNat < 256 := b.toNat_lt
  simp only [byteDigits, List.mem_cons, List.not_mem_nil, or_false] at hc
  rcases hc with rfl | rfl
  · exact digitChar_mem_digits (Nat.le_refl 16) (by omega)
  · exact digitChar_mem_digits (Nat.le_refl 16) (by omega)

theorem value_append_byteDigits (front : List Char) (b : UInt8) :
    value 16 (front ++ byteDigits b) = value 16 front * 256 + b.toNat := by
  have hlt : b.toNat < 256 := b.toNat_lt
  have hdigits : value 16 (byteDigits b) = b.toNat / 16 * 16 + b.toNat % 16 := by
    rw [byteDigits, ← List.singleton_append, value_append, value_singleton, value_singleton,
      idxOf_digitChar (by omega), idxOf_digitChar (by omega), List.length_singleton, pow_one]
  have hlength : (byteDigits b).length = 2 := rfl
  rw [value_append, hdigits, hlength]
  omega

theorem value_flatMap_byteDigits (bytes : List UInt8) :
    value 16 (bytes.flatMap byteDigits) = Word.accumulate 0 bytes := by
  induction bytes using List.reverseRecOn with
  | nil => rfl
  | append_singleton front b ih =>
      rw [List.flatMap_append, List.flatMap_singleton, value_append_byteDigits, ih,
        Word.accumulate_concat]

theorem toLower_of_mem_digits {base : ℕ} {c : Char} (h : c ∈ digits base) : c.toLower = c := by
  have hall : alphabet.all (fun c ↦ c.toLower == c) = true := rfl
  exact beq_iff_eq.mp (List.all_eq_true.mp hall c (List.mem_of_mem_take h))

theorem map_toLower_of_isNumeral {base : ℕ} {cs : List Char} (h : IsNumeral base cs) :
    cs.map Char.toLower = cs :=
  (List.map_congr_left fun c hc ↦ toLower_of_mem_digits (h c hc)).trans (List.map_id cs)

/-- A row of digits has as many bytes as characters. -/
theorem utf8ByteSize_ofList {cs : List Char} (h : IsNumeral 16 (cs.map Char.toLower)) :
    (String.ofList cs).utf8ByteSize = cs.length := by
  induction cs with
  | nil => rfl
  | cons c cs ih =>
      have hascii : c.toNat < 128 := toNat_lt_of_toLower_mem (h _ List.mem_cons_self)
      have hsize : c.utf8Size = 1 := Char.utf8Size_eq_one_iff.mpr (Nat.le_of_lt_succ hascii)
      rw [String.ofList_cons, String.utf8ByteSize_append, String.utf8ByteSize_singleton, hsize,
        ih fun d hd ↦ h d (List.mem_cons_of_mem _ hd), List.length_cons, Nat.add_comm]

/-! ## Whole texts -/

theorem decode_eq_ok_iff {text : String} {bytes : List UInt8} :
    decode text = .ok bytes ↔ bytes.flatMap byteDigits = text.toList.map Char.toLower := by
  constructor
  · intro h
    rw [decode] at h
    split at h
    · cases h
    · exact flatMap_of_decodeFrom h
  · intro h
    have hrow := isNumeral_flatMap_byteDigits bytes
    rw [h] at hrow
    have hsize := utf8ByteSize_ofList hrow
    have hlength := congrArg List.length h
    rw [String.ofList_toList] at hsize
    rw [length_flatMap_byteDigits, List.length_map] at hlength
    rw [decode, if_neg (by omega)]
    exact decodeFrom_of_flatMap h

theorem decode_encode (bytes : List UInt8) : decode (encode bytes) = .ok bytes := by
  rw [decode_eq_ok_iff, encode, String.toList_ofList,
    map_toLower_of_isNumeral (isNumeral_flatMap_byteDigits bytes)]

theorem even_of_decode_eq_ok {text : String} {bytes : List UInt8} (h : decode text = .ok bytes) :
    text.utf8ByteSize % 2 = 0 := by
  rw [decode] at h
  split at h
  · cases h
  · omega

/-! ## Padding and the mark -/

section

variable {text : String} {bytes : List UInt8}

theorem decodePadded_of_odd (h : (unmarked text).utf8ByteSize % 2 = 1) :
    decodePadded text = decode ("0" ++ unmarked text) := by
  rw [decodePadded, if_pos h]

theorem decodePadded_of_even (h : (unmarked text).utf8ByteSize % 2 = 0) :
    decodePadded text = decode (unmarked text) := by
  rw [decodePadded, if_neg (by omega)]

/-- What is read are the bytes whose written form is the text in lower case, without the
mark and with all digits. -/
theorem decodePadded_eq_ok_iff :
    decodePadded text = .ok bytes ↔
      encode bytes =
        (if (unmarked text).utf8ByteSize % 2 = 1 then "0" else "") ++ (unmarked text).toLower := by
  rw [← String.toList_inj, String.toList_append, encode, String.toList_ofList,
    Text.toList_toLower]
  by_cases hodd : (unmarked text).utf8ByteSize % 2 = 1
  · rw [decodePadded_of_odd hodd, decode_eq_ok_iff, String.toList_append, List.map_append,
      if_pos hodd]
    rfl
  · rw [decodePadded_of_even (by omega), decode_eq_ok_iff, if_neg hodd]
    rfl

theorem unmarked_append (text : String) : unmarked ("0x" ++ text) = text := by
  rw [unmarked, String.toList_append]
  exact String.ofList_toList

theorem unmarked_of_notMem (h : 'x' ∉ text.toList) : unmarked text = text := by
  unfold unmarked
  split
  · next rest hmarked =>
      rw [hmarked] at h
      exact absurd (List.mem_cons_of_mem _ List.mem_cons_self) h
  · rfl

theorem notMem_of_isNumeral {cs : List Char} {c : Char} (h : IsNumeral 16 cs)
    (hc : c ∉ alphabet) : c ∉ cs :=
  fun hmem ↦ hc (h c hmem)

theorem unmarked_encode (bytes : List UInt8) : unmarked (encode bytes) = encode bytes := by
  apply unmarked_of_notMem
  rw [encode, String.toList_ofList]
  exact notMem_of_isNumeral (isNumeral_flatMap_byteDigits bytes) (by decide)

theorem isNumeral_of_decodePadded (h : decodePadded text = .ok bytes) :
    IsNumeral 16 ((unmarked text).toList.map Char.toLower) := by
  have hdigits := congrArg String.toList (decodePadded_eq_ok_iff.mp h)
  rw [String.toList_append, encode, String.toList_ofList, Text.toList_toLower] at hdigits
  intro c hc
  apply isNumeral_flatMap_byteDigits bytes
  rw [hdigits]
  exact List.mem_append_right _ hc

theorem decodePadded_of_unmarked (h : unmarked text = encode bytes) :
    decodePadded text = .ok bytes := by
  have hread := decode_encode bytes
  rw [← h] at hread
  rw [decodePadded_of_even (even_of_decode_eq_ok hread), hread]

end

theorem isBlank_of_mem_encode (bytes : List UInt8) :
    ∀ c ∈ (encode bytes).toList, Text.isBlank c = false := by
  intro c hc
  rw [encode, String.toList_ofList] at hc
  exact Text.isBlank_of_mem_digits (isNumeral_flatMap_byteDigits bytes c hc)

theorem isBlank_of_mem_marked (bytes : List UInt8) :
    ∀ c ∈ ("0x" ++ encode bytes).toList, Text.isBlank c = false := by
  intro c hc
  rw [String.toList_append, List.mem_append] at hc
  rcases hc with hmark | hdigit
  · have hall : "0x".toList.all (Text.isBlank · == false) = true := rfl
    exact beq_iff_eq.mp (List.all_eq_true.mp hall c hmark)
  · exact isBlank_of_mem_encode bytes c hdigit

end Hex

/-! ## Program arguments -/

section

variable {argument : String} {bytes : List UInt8}

theorem readCode_eq_ok_iff :
    readCode argument = .ok bytes ↔
      Hex.decode (Hex.unmarked (Text.trimmed argument)) = .ok bytes := by
  unfold readCode
  dsimp only
  split
  · next found hfound => rw [hfound, Except.ok.injEq, Except.ok.injEq]
  · next error herror =>
      rw [herror]
      exact ⟨nofun, nofun⟩

theorem readCode_eq_ok_iff_decodePadded :
    readCode argument = .ok bytes ↔
      (Hex.unmarked (Text.trimmed argument)).utf8ByteSize % 2 = 0 ∧
        Hex.decodePadded (Text.trimmed argument) = .ok bytes := by
  rw [readCode_eq_ok_iff]
  constructor
  · intro h
    have heven := Hex.even_of_decode_eq_ok h
    exact ⟨heven, (Hex.decodePadded_of_even heven).trans h⟩
  · rintro ⟨heven, h⟩
    rwa [Hex.decodePadded_of_even heven] at h

theorem readCode_of_unmarked (hblank : ∀ c ∈ argument.toList, Text.isBlank c = false)
    (h : Hex.unmarked argument = Hex.encode bytes) : readCode argument = .ok bytes := by
  have htrimmed : Text.trimmed argument = argument := by
    rw [Text.trimmed, Text.trimmedChars_of_forall hblank, String.ofList_toList]
  rw [readCode_eq_ok_iff, htrimmed, h, Hex.decode_encode]

end

namespace Hex

open Numeral

/-- Bytes are written as the digits of their number, two for each byte.  A fixture's text is
read as the bytes that it writes, if all behind an optional mark are digits, a zero being
put in front of an odd number of them.  A program argument is read as the same bytes, but
blanks around it are ignored and no zero is put in front.  Both read what is written, with
the mark or without. -/
theorem code_readers_agree :
    (∀ bytes : List UInt8,
        IsNumeral 16 (encode bytes).toList ∧
        (encode bytes).toList.length = 2 * bytes.length ∧
        value 16 (encode bytes).toList = Word.bigEndianValue bytes) ∧
      (∀ (text : String) (bytes : List UInt8),
        decodePadded text = .ok bytes ↔
          IsNumeral 16 (unmarked text).toLower.toList ∧
          encode bytes =
            (if (unmarked text).utf8ByteSize % 2 = 1 then "0" else "") ++
              (unmarked text).toLower) ∧
      (∀ (argument : String) (bytes : List UInt8),
        readCode argument = .ok bytes ↔
          (unmarked (Text.trimmed argument)).utf8ByteSize % 2 = 0 ∧
          decodePadded (Text.trimmed argument) = .ok bytes) ∧
      ∀ bytes : List UInt8,
        decodePadded (encode bytes) = .ok bytes ∧
        decodePadded ("0x" ++ encode bytes) = .ok bytes ∧
        readCode (encode bytes) = .ok bytes ∧
        readCode ("0x" ++ encode bytes) = .ok bytes := by
  refine ⟨?_, ?_, fun _ _ ↦ readCode_eq_ok_iff_decodePadded, ?_⟩
  · intro bytes
    rw [encode, String.toList_ofList, Word.bigEndianValue_eq_accumulate]
    exact ⟨isNumeral_flatMap_byteDigits bytes, length_flatMap_byteDigits bytes,
      value_flatMap_byteDigits bytes⟩
  · intro text bytes
    constructor
    · intro h
      refine ⟨?_, decodePadded_eq_ok_iff.mp h⟩
      rw [Text.toList_toLower]
      exact isNumeral_of_decodePadded h
    · rintro ⟨-, h⟩
      exact decodePadded_eq_ok_iff.mpr h
  · intro bytes
    have hplain := unmarked_encode bytes
    have hmarked := unmarked_append (encode bytes)
    exact ⟨decodePadded_of_unmarked hplain, decodePadded_of_unmarked hmarked,
      readCode_of_unmarked (isBlank_of_mem_encode bytes) hplain,
      readCode_of_unmarked (isBlank_of_mem_marked bytes) hmarked⟩

end Hex

end WordMachine
