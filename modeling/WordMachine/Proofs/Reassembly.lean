import WordMachine.Proofs.ListingEntries

/-!
# Reassembly

A listing shows all of its code.  The names and immediates of its entries, put one
behind the other, are the bytes again, and the lines of text are those of no other
code.  Only at the end can an immediate be shorter than its width, and there it is
listed as far as the code goes.
-/

namespace WordMachine

/-! ## Names -/

namespace Operation

/-- The operations whose mnemonics have no number at the end for a width or a
depth. -/
def unnumbered : List Operation :=
  [stop, unary .isZero, unary .not, binary .add, binary .mul, binary .sub, binary .div,
    binary .sdiv, binary .mod, binary .smod, binary .exp, binary .signExtend, binary .lt,
    binary .gt, binary .slt, binary .sgt, binary .eq, binary .and, binary .or, binary .xor,
    binary .byte, binary .shl, binary .shr, binary .sar, ternary .addMod, ternary .mulMod, pop,
    mload, mstore, mstore8, jump, jumpi, pc, msize, jumpdest, ret, revert]

/-- Reads a mnemonic. -/
def ofMnemonic? (name : String) : Option Operation :=
  match name.toList with
  | 'P' :: 'U' :: 'S' :: 'H' :: digits => some (push (Nat.ofDigitChars 10 digits 0))
  | 'D' :: 'U' :: 'P' :: digits => some (dup (Nat.ofDigitChars 10 digits 0))
  | 'S' :: 'W' :: 'A' :: 'P' :: digits => some (swap (Nat.ofDigitChars 10 digits 0))
  | _ => unnumbered.find? (·.mnemonic = name)

/-- An operation is in the list, unless it is one of the three that have a number. -/
@[elab_as_elim] theorem numbered_cases {motive : Operation → Prop} (op : Operation)
    (push : ∀ n, motive (push n)) (dup : ∀ n, motive (dup n)) (swap : ∀ n, motive (swap n))
    (unnumbered : ∀ op ∈ unnumbered, motive op) : motive op := by
  cases op with
  | push n => exact push n
  | dup n => exact dup n
  | swap n => exact swap n
  | unary op => exact unnumbered _ (by cases op <;> decide)
  | binary op => exact unnumbered _ (by cases op <;> decide)
  | ternary op => exact unnumbered _ (by cases op <;> decide)
  | _ => exact unnumbered _ (by decide)

theorem ofMnemonic?_of_unnumbered :
    ∀ op ∈ unnumbered, ofMnemonic? op.mnemonic = some op := by
  decide +kernel

theorem ofDigitChars_toString (n : Nat) : Nat.ofDigitChars 10 (toString n).toList 0 = n := by
  rw [Nat.toString_eq_ofList_toDigits, String.toList_ofList]
  exact Nat.ofDigitChars_ten_toDigits

theorem ofMnemonic?_mnemonic (op : Operation) : ofMnemonic? op.mnemonic = some op := by
  cases op using numbered_cases with
  | push n =>
      rw [mnemonic, ofMnemonic?, String.toList_append]
      exact congrArg (some ∘ push) (ofDigitChars_toString n)
  | dup n =>
      rw [mnemonic, ofMnemonic?, String.toList_append]
      exact congrArg (some ∘ dup) (ofDigitChars_toString n)
  | swap n =>
      rw [mnemonic, ofMnemonic?, String.toList_append]
      exact congrArg (some ∘ swap) (ofDigitChars_toString n)
  | unnumbered op hop => exact ofMnemonic?_of_unnumbered op hop

theorem mnemonic_injective {a b : Operation} (h : a.mnemonic = b.mnemonic) : a = b := by
  have hread := congrArg ofMnemonic? h
  rw [ofMnemonic?_mnemonic, ofMnemonic?_mnemonic] at hread
  exact Option.some.inj hread

theorem nodup_table :
    ((List.range 256).filterMap fun n ↦ ofByte? (UInt8.ofNat n)).Nodup := by
  decide +kernel

theorem ofByte?_ne_of_lt {a b : UInt8} {op : Operation} (ha : ofByte? a = some op)
    (hlt : a.toNat < b.toNat) : ofByte? b ≠ some op := by
  intro hb
  have htable := List.pairwise_iff_getElem.mp (List.pairwise_filterMap.mp nodup_table)
    a.toNat b.toNat (by simpa using a.toNat_lt) (by simpa using b.toNat_lt) hlt
  rw [List.getElem_range, List.getElem_range, UInt8.ofNat_toNat, UInt8.ofNat_toNat] at htable
  exact htable op ha op hb rfl

/-- No two bytes stand for one operation. -/
theorem ofByte?_injective {a b : UInt8} {op : Operation} (ha : ofByte? a = some op)
    (hb : ofByte? b = some op) : a = b := by
  apply UInt8.toNat_inj.mp
  rcases Nat.lt_trichotomy a.toNat b.toNat with hlt | heq | hgt
  · exact absurd hb (ofByte?_ne_of_lt ha hlt)
  · exact heq
  · exact absurd ha (ofByte?_ne_of_lt hb hgt)

theorem blank_notMem_of_unnumbered : ∀ op ∈ unnumbered, ' ' ∉ op.mnemonic.toList := by
  decide +kernel

theorem blank_notMem_numbered {stem : String} (hstem : ' ' ∉ stem.toList) (n : Nat) :
    ' ' ∉ (stem ++ toString n).toList := by
  rw [String.toList_append, Nat.toString_eq_ofList_toDigits, String.toList_ofList,
    List.mem_append]
  rintro (hmem | hmem)
  · exact hstem hmem
  · cases Nat.isDigit_of_mem_toDigits (by decide) (by decide) hmem

theorem blank_notMem_mnemonic (op : Operation) : ' ' ∉ op.mnemonic.toList := by
  cases op using numbered_cases with
  | push n => exact blank_notMem_numbered (by decide) n
  | dup n => exact blank_notMem_numbered (by decide) n
  | swap n => exact blank_notMem_numbered (by decide) n
  | unnumbered op hop => exact blank_notMem_of_unnumbered op hop

end Operation

namespace Hex

theorem flatMap_byteDigits_injective {xs ys : List UInt8}
    (h : xs.flatMap byteDigits = ys.flatMap byteDigits) : xs = ys := by
  induction xs generalizing ys with
  | nil =>
      cases ys with
      | nil => rfl
      | cons b ys => cases h
  | cons a xs ih =>
      cases ys with
      | nil => cases h
      | cons b ys =>
          rw [List.flatMap_cons, List.flatMap_cons] at h
          obtain ⟨hdigits, hrest⟩ := List.append_inj h rfl
          rw [byteDigits_injective hdigits, ih hrest]

theorem blank_notMem_byteDigits (b : UInt8) : ' ' ∉ byteDigits b := by
  have hdigit : ∀ n < 16, ' ' ≠ Nat.digitChar n := by decide
  have hlt := b.toNat_lt
  simp only [byteDigits, List.mem_cons, List.not_mem_nil, or_false, not_or]
  exact ⟨hdigit _ (by omega), hdigit _ (by omega)⟩

end Hex

namespace Instruction

variable {i j : Instruction}

theorem opcode_eq_of_name_eq (h : i.name = j.name) : i.opcode = j.opcode := by
  cases hi : Operation.ofByte? i.opcode with
  | none =>
      rw [name_of_none hi] at h
      exact (name_eq_invalid_iff.mp h.symm).2.symm
  | some op =>
      cases hj : Operation.ofByte? j.opcode with
      | none =>
          rw [name_of_none hj] at h
          exact (name_eq_invalid_iff.mp h).2
      | some other =>
          rw [name_of_some hi, name_of_some hj] at h
          cases Operation.mnemonic_injective h
          exact Operation.ofByte?_injective hi hj

theorem blank_notMem_name (i : Instruction) : ' ' ∉ i.name.toList := by
  cases hop : Operation.ofByte? i.opcode with
  | none =>
      rw [name_of_none hop, String.toList_append, String.toList_append, List.mem_append,
        List.mem_append]
      rintro ((hmem | hmem) | hmem)
      · exact absurd hmem (by decide)
      · rw [Hex.encode, String.toList_ofList, List.flatMap_singleton] at hmem
        exact Hex.blank_notMem_byteDigits i.opcode hmem
      · exact absurd hmem (by decide)
  | some op =>
      rw [name_of_some hop]
      exact op.blank_notMem_mnemonic

end Instruction

/-- The byte that is listed under a name. -/
def opcodeNamed? (name : String) : Option UInt8 :=
  ((List.range 256).map UInt8.ofNat).find? fun byte ↦ (Instruction.mk 0 byte []).name = name

theorem opcodeNamed?_name (i : Instruction) : opcodeNamed? i.name = some i.opcode := by
  have hmem : i.opcode ∈ (List.range 256).map UInt8.ofNat :=
    List.mem_map.mpr ⟨i.opcode.toNat, List.mem_range.mpr i.opcode.toNat_lt, UInt8.ofNat_toNat⟩
  cases hfind : opcodeNamed? i.name with
  | none =>
      have hnone := List.find?_eq_none.mp hfind i.opcode hmem
      exact absurd (decide_eq_true rfl) hnone
  | some byte =>
      rw [opcodeNamed?] at hfind
      have hname := List.find?_some hfind
      exact congrArg some (Instruction.opcode_eq_of_name_eq (of_decide_eq_true hname))

/-! ## Bytes -/

/-- The bytes of entries of which the names and the immediates are known. -/
def assemble? : List (String × List UInt8) → Option (List UInt8)
  | [] => some []
  | (name, immediate) :: rest => do
    let opcode ← opcodeNamed? name
    let bytes ← assemble? rest
    return opcode :: (immediate ++ bytes)

theorem assemble?_listingFrom (pc : Nat) (bytes : List UInt8) :
    assemble? ((listingFrom pc bytes).map fun i ↦ (i.name, i.immediate)) = some bytes := by
  fun_induction listingFrom pc bytes with
  | case1 => rfl
  | case2 pc opcode rest width ih =>
      rw [List.map_cons, assemble?, opcodeNamed?_name, ih]
      simp only [Option.bind_eq_bind, Option.bind_some, List.take_append_drop]
      rfl

theorem listingFrom_head {pc : Nat} {bytes : List UInt8} {i : Instruction}
    (h : (listingFrom pc bytes)[0]? = some i) : i.pc = pc := by
  cases bytes with
  | nil =>
      rw [listingFrom] at h
      cases h
  | cons opcode rest =>
      rw [listingFrom] at h
      cases h
      rfl

/-- An entry that another one follows is complete, and the other one begins right
behind it. -/
theorem listingFrom_adjoin {pc : Nat} {bytes : List UInt8} {k : Nat} {i j : Instruction}
    (hi : (listingFrom pc bytes)[k]? = some i) (hj : (listingFrom pc bytes)[k + 1]? = some j) :
    i.immediate.length = immediateWidth i.opcode ∧ j.pc = i.pc + 1 + i.immediate.length := by
  revert k
  fun_induction listingFrom pc bytes with
  | case1 =>
      intro k hi
      cases hi
  | @case2 pc opcode rest width ih =>
      intro k hi hj
      rw [List.getElem?_cons_succ] at hj
      cases k with
      | zero =>
          cases hi
          -- Something follows, so the immediate was not cut off.
          have hfull : (rest.take width).length = width := by
            apply List.length_take_of_le
            apply Nat.le_of_lt
            apply Nat.lt_of_not_le
            intro hcut
            rw [List.drop_eq_nil_of_le hcut, listingFrom] at hj
            cases hj
          refine ⟨hfull, ?_⟩
          rw [listingFrom_head hj, hfull]
      | succ k => exact ih hi hj

/-! ## Lines -/

theorem takeWhile_append_of_mark {mark : Char} {word rest : List Char} (hword : mark ∉ word)
    (hrest : ∀ c ∈ rest.head?, c = mark) : (word ++ rest).takeWhile (· != mark) = word := by
  rw [List.takeWhile_append_of_pos]
  · cases rest with
    | nil => simp
    | cons c rest => simp [hrest c rfl]
  · intro c hc
    rw [bne_iff_ne]
    rintro rfl
    exact hword hc

/-- Words that end where a mark stands, or with the text, can be told apart. -/
theorem append_inj_of_mark {mark : Char} {xs ys ss ts : List Char} (hxs : mark ∉ xs)
    (hys : mark ∉ ys) (hss : ∀ c ∈ ss.head?, c = mark) (hts : ∀ c ∈ ts.head?, c = mark)
    (h : xs ++ ss = ys ++ ts) : xs = ys ∧ ss = ts := by
  have hwords : xs = ys := by
    rw [← takeWhile_append_of_mark hxs hss, h, takeWhile_append_of_mark hys hts]
  subst hwords
  exact ⟨rfl, List.append_cancel_left h⟩

namespace Instruction

variable {i j : Instruction}

def immediateText (i : Instruction) : String :=
  if i.immediate.isEmpty then "" else " 0x" ++ Hex.encode i.immediate

theorem line_eq (i : Instruction) :
    i.line = i.address ++ ": " ++ i.name ++ i.immediateText := rfl

theorem head?_immediateText (i : Instruction) : ∀ c ∈ i.immediateText.toList.head?, c = ' ' := by
  unfold immediateText
  split
  · exact nofun
  · rw [String.toList_append]
    rintro c ⟨⟩
    rfl

theorem immediateText_of_cons {b : UInt8} {rest : List UInt8} (h : i.immediate = b :: rest) :
    i.immediateText.toList = ' ' :: '0' :: 'x' :: (b :: rest).flatMap Hex.byteDigits := by
  rw [immediateText, h, if_neg (by simp), Hex.encode, String.toList_append]
  simp only [String.toList_ofList]
  rfl

theorem immediateText_of_nil (h : i.immediate = []) : i.immediateText.toList = [] := by
  rw [immediateText, h]
  rfl

theorem immediate_eq_of_text_eq (h : i.immediateText = j.immediateText) :
    i.immediate = j.immediate := by
  have hchars := congrArg String.toList h
  cases hi : i.immediate with
  | nil =>
      cases hj : j.immediate with
      | nil => rfl
      | cons b ys =>
          rw [immediateText_of_nil hi, immediateText_of_cons hj] at hchars
          cases hchars
  | cons a xs =>
      rw [immediateText_of_cons hi] at hchars
      cases hj : j.immediate with
      | nil =>
          rw [immediateText_of_nil hj] at hchars
          cases hchars
      | cons b ys =>
          rw [immediateText_of_cons hj] at hchars
          apply Hex.flatMap_byteDigits_injective
          exact (List.cons.inj (List.cons.inj (List.cons.inj hchars).2).2).2

/-- At one position no two instructions are listed alike. -/
theorem eq_of_line_eq (hpc : i.pc = j.pc) (h : i.line = j.line) : i = j := by
  have haddress : i.address = j.address := by rw [address, address, hpc]
  have hchars := congrArg String.toList h
  rw [line_eq, line_eq, haddress] at hchars
  simp only [String.toList_append, List.append_assoc] at hchars
  have htail := List.append_cancel_left (List.append_cancel_left hchars)
  obtain ⟨hname, htext⟩ := append_inj_of_mark i.blank_notMem_name j.blank_notMem_name
    i.head?_immediateText j.head?_immediateText htail
  have hopcode := opcode_eq_of_name_eq (String.toList_inj.mp hname)
  have himmediate := immediate_eq_of_text_eq (String.toList_inj.mp htext)
  cases i
  cases j
  cases hpc
  cases hopcode
  cases himmediate
  rfl

end Instruction

theorem listingFrom_inj_of_lines {pc : Nat} {bytes others : List UInt8}
    (h : (listingFrom pc bytes).map Instruction.line
      = (listingFrom pc others).map Instruction.line) : bytes = others := by
  revert others
  fun_induction listingFrom pc bytes with
  | case1 pc =>
      intro others h
      exact (listingFrom_eq_nil_iff.mp (List.map_eq_nil_iff.mp h.symm)).symm
  | @case2 pc opcode rest width ih =>
      intro others h
      cases others with
      | nil =>
          rw [listingFrom] at h
          cases h
      | cons other tail =>
          rw [listingFrom, List.map_cons, List.map_cons] at h
          obtain ⟨hline, hrest⟩ := List.cons.inj h
          -- Both entries are at `pc`, so their lines tell opcode and immediate.
          have heq := Instruction.eq_of_line_eq (Eq.refl pc) hline
          cases congrArg Instruction.opcode heq
          have htake : rest.take width = tail.take width := congrArg Instruction.immediate heq
          rw [← List.take_append_drop width rest, htake, ih hrest, List.take_append_drop]

/-- The names and immediates of a listing are the code; the entries stand one behind
the other from the first byte on, with nothing cut off but at the end; and the lines
are the lines of no other code. -/
theorem listing_lossless (code : Code) :
    assemble? ((listing code).map fun i ↦ (i.name, i.immediate)) = some code.toList ∧
      (∀ i, (listing code)[0]? = some i → i.pc = 0) ∧
      (∀ k i j, (listing code)[k]? = some i → (listing code)[k + 1]? = some j →
        i.immediate.length = immediateWidth i.opcode ∧
          j.pc = i.pc + 1 + i.immediate.length) ∧
      (∀ i ∈ listing code, i.immediate.length ≤ immediateWidth i.opcode) ∧
      ∀ other : Code, (listing code).map Instruction.line = (listing other).map Instruction.line →
        code = other := by
  refine ⟨assemble?_listingFrom 0 code.toList, ?_, ?_, ?_, ?_⟩
  · intro i hi
    exact listingFrom_head hi
  · intro k i j hi hj
    exact listingFrom_adjoin hi hj
  · intro i hi
    rw [(readFrom_of_mem_listing hi).immediate]
    exact List.length_take_le _ _
  · intro other hlines
    exact Array.toList_inj.mp (listingFrom_inj_of_lines hlines)

/-- A push, a byte that is no operation and a push that the end cuts off. -/
def cutPush : Code := #[0x60, 0x01, 0xfe, 0x61, 0xab]

/-- The same bytes, put together from two parts. -/
def joinedPush : Code := #[0x60, 0x01] ++ #[0xfe, 0x61, 0xab]

theorem listing_lossless_cutPush :
    let first : Instruction := ⟨0, 0x60, [0x01]⟩
    let invalid : Instruction := ⟨2, 0xfe, []⟩
    let push : Instruction := ⟨3, 0x61, [0xab]⟩
    listing cutPush = [first, invalid, push] ∧ first.pc = 0 ∧
      invalid.immediate.length = immediateWidth invalid.opcode ∧
      push.pc = invalid.pc + 1 + invalid.immediate.length ∧
      push.immediate.length ≤ immediateWidth push.opcode ∧ immediateWidth push.opcode = 2 ∧
      assemble? [("PUSH1", [0x01]), ("INVALID(0xfe)", []), ("PUSH2", [0xab])]
        = some cutPush.toList ∧
      (listing cutPush).map Instruction.line = (listing joinedPush).map Instruction.line ∧
      cutPush = joinedPush ∧
      (listing cutPush).map Instruction.line
        ≠ (listing #[0x60, 0x01, 0xfe, 0x61]).map Instruction.line := by
  intro first invalid push
  have hlisting : listing cutPush = [first, invalid, push] := by decide +kernel
  have hentries : (listing cutPush).map (fun i ↦ (i.name, i.immediate))
      = [("PUSH1", [0x01]), ("INVALID(0xfe)", []), ("PUSH2", [0xab])] := by decide +kernel
  have hjoined : (listing cutPush).map Instruction.line
      = (listing joinedPush).map Instruction.line := by decide +kernel
  obtain ⟨hbytes, hzero, hnext, hwidth, hlines⟩ := listing_lossless cutPush
  rw [hentries] at hbytes
  obtain ⟨hwhole, hpc⟩ := hnext 1 invalid push (by rw [hlisting]; rfl) (by rw [hlisting]; rfl)
  refine ⟨hlisting, hzero first (by rw [hlisting]; rfl), hwhole, hpc, ?_, by decide +kernel, hbytes,
    hjoined, hlines joinedPush hjoined, ?_⟩
  · exact hwidth push (by rw [hlisting]; simp)
  · intro heq
    exact absurd (hlines _ heq) (by decide)

end WordMachine
