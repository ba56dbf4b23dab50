import WordMachine.Listing

/-!
# The entries of a listing

An entry is read off the code at its position, and where it ends the next one
begins, unless the code has ended there or before.  Its name tells its opcode: no
mnemonic looks like the name of a byte without one, and a push can be told from
everything else together with its width.
-/

namespace WordMachine

/-! ## Names -/

theorem toString_injective {m n : Nat} (h : toString m = toString n) : m = n := by
  rw [Nat.toString_eq_ofList_toDigits, Nat.toString_eq_ofList_toDigits] at h
  have hdigits : Nat.toDigits 10 m = Nat.toDigits 10 n := by
    simpa using congrArg String.toList h
  calc m = Nat.ofDigitChars 10 (Nat.toDigits 10 m) 0 := Nat.ofDigitChars_ten_toDigits.symm
    _ = Nat.ofDigitChars 10 (Nat.toDigits 10 n) 0 := by rw [hdigits]
    _ = n := Nat.ofDigitChars_ten_toDigits

namespace Hex

theorem digitChar_injective {a b : Nat} (ha : a < 16) (hb : b < 16)
    (h : Nat.digitChar a = Nat.digitChar b) : a = b := by
  have hall : ∀ a < 16, ∀ b < 16, Nat.digitChar a = Nat.digitChar b → a = b := by decide
  exact hall a ha b hb h

theorem byteDigits_injective {a b : UInt8} (h : byteDigits a = byteDigits b) : a = b := by
  simp only [byteDigits, List.cons.injEq, and_true] at h
  have hbounds := And.intro a.toNat_lt b.toNat_lt
  have hhigh : a.toNat / 16 = b.toNat / 16 := digitChar_injective (by omega) (by omega) h.1
  have hlow : a.toNat % 16 = b.toNat % 16 := digitChar_injective (by omega) (by omega) h.2
  apply UInt8.toNat_inj.mp
  omega

end Hex

namespace Operation

theorem mnemonic_ne_invalid (op : Operation) (text : String) :
    op.mnemonic ≠ "INVALID(0x" ++ text := by
  intro h
  have hchars := congrArg String.toList h
  rw [String.toList_append] at hchars
  cases op with
  | unary op => cases op <;> cases hchars
  | binary op => cases op <;> cases hchars
  | ternary op => cases op <;> cases hchars
  | push width | dup width | swap width =>
      rw [mnemonic, String.toList_append] at hchars
      cases hchars
  | _ => cases hchars

theorem eq_push_of_mnemonic {op : Operation} {width : Nat}
    (h : op.mnemonic = "PUSH" ++ toString width) : op = push width := by
  have hchars := congrArg String.toList h
  rw [String.toList_append] at hchars
  cases op with
  | unary op => cases op <;> cases hchars
  | binary op => cases op <;> cases hchars
  | ternary op => cases op <;> cases hchars
  | push found =>
      rw [mnemonic, String.toList_append] at hchars
      have hdigits := String.toList_inj.mp (List.append_cancel_left hchars)
      rw [toString_injective hdigits]
  | dup | swap =>
      rw [mnemonic, String.toList_append] at hchars
      cases hchars
  | _ => cases hchars

end Operation

namespace Instruction

variable {i : Instruction}

theorem name_of_none (h : Operation.ofByte? i.opcode = none) :
    i.name = "INVALID(0x" ++ Hex.encode [i.opcode] ++ ")" := by
  rw [name, h]

theorem name_of_some {op : Operation} (h : Operation.ofByte? i.opcode = some op) :
    i.name = op.mnemonic := by
  rw [name, h]

theorem name_eq_invalid_iff {byte : UInt8} :
    i.name = "INVALID(0x" ++ Hex.encode [byte] ++ ")" ↔
      Operation.ofByte? i.opcode = none ∧ i.opcode = byte := by
  constructor
  · intro h
    cases hop : Operation.ofByte? i.opcode with
    | none =>
        rw [name_of_none hop] at h
        have hchars := congrArg String.toList h
        simp only [String.toList_append, List.append_cancel_left_eq, List.append_cancel_right_eq,
          Hex.encode, String.toList_ofList, List.flatMap_cons, List.flatMap_nil,
          List.append_nil] at hchars
        exact ⟨rfl, Hex.byteDigits_injective hchars⟩
    | some op =>
        rw [name_of_some hop, String.append_assoc] at h
        exact absurd h (op.mnemonic_ne_invalid _)
  · rintro ⟨hop, rfl⟩
    exact name_of_none hop

theorem name_eq_push_iff {width : Nat} :
    i.name = "PUSH" ++ toString width ↔ Operation.ofByte? i.opcode = some (.push width) := by
  constructor
  · intro h
    cases hop : Operation.ofByte? i.opcode with
    | none =>
        rw [name_of_none hop] at h
        have hchars := congrArg String.toList h
        rw [String.toList_append, String.toList_append, String.toList_append] at hchars
        cases hchars
    | some op =>
        rw [name_of_some hop] at h
        rw [Operation.eq_push_of_mnemonic h]
  · exact name_of_some

/-! ## Positions -/

/-- The position just behind the instruction, whether the code goes so far or not. -/
def finish (i : Instruction) : Nat := i.pc + 1 + immediateWidth i.opcode

structure ReadFrom (bytes : List UInt8) (i : Instruction) : Prop where
  opcode : bytes[i.pc]? = some i.opcode
  immediate : i.immediate = (bytes.drop (i.pc + 1)).take (immediateWidth i.opcode)

end Instruction

section

variable {all bytes : List UInt8} {pc : Nat} {i : Instruction}

theorem drop_succ_of_drop_eq_cons {byte : UInt8} (h : all.drop pc = byte :: bytes) :
    all.drop (pc + 1) = bytes := by
  rw [← List.drop_drop, h]
  rfl

theorem drop_width_of_drop_eq_cons {byte : UInt8} (h : all.drop pc = byte :: bytes) (width : Nat) :
    all.drop (pc + 1 + width) = bytes.drop width := by
  rw [← List.drop_drop, drop_succ_of_drop_eq_cons h]

theorem readFrom_of_mem (hbytes : all.drop pc = bytes) (h : i ∈ listingFrom pc bytes) :
    i.ReadFrom all := by
  fun_induction listingFrom pc bytes with
  | case1 => cases h
  | case2 pc opcode rest width ih =>
      rcases List.mem_cons.mp h with rfl | htail
      · constructor
        · rw [← List.head?_drop, hbytes]
          rfl
        · rw [drop_succ_of_drop_eq_cons hbytes]
      · exact ih (drop_width_of_drop_eq_cons hbytes width) htail

theorem listingFrom_eq_nil_iff : listingFrom pc bytes = [] ↔ bytes = [] := by
  cases bytes with
  | nil => simp [listingFrom]
  | cons opcode rest => simp [listingFrom]

theorem exists_mem_listingFrom (pc : Nat) (h : bytes ≠ []) :
    ∃ i ∈ listingFrom pc bytes, i.pc = pc := by
  cases bytes with
  | nil => exact absurd rfl h
  | cons opcode rest =>
      rw [listingFrom]
      exact ⟨_, List.mem_cons_self, rfl⟩

theorem exists_mem_finish (hbytes : all.drop pc = bytes) (h : i ∈ listingFrom pc bytes) :
    all.length ≤ i.finish ∨ ∃ j ∈ listingFrom pc bytes, j.pc = i.finish := by
  fun_induction listingFrom pc bytes with
  | case1 => cases h
  | case2 pc opcode rest width ih =>
      have hrest := drop_width_of_drop_eq_cons hbytes width
      rcases List.mem_cons.mp h with rfl | htail
      · by_cases hend : rest.drop width = []
        · left
          rw [hend] at hrest
          exact List.drop_eq_nil_iff.mp hrest
        · right
          obtain ⟨j, hj, hpc⟩ := exists_mem_listingFrom (pc + 1 + width) hend
          exact ⟨j, List.mem_cons_of_mem _ hj, hpc⟩
      · rcases ih hrest htail with hend | ⟨j, hj, hpc⟩
        · exact .inl hend
        · exact .inr ⟨j, List.mem_cons_of_mem _ hj, hpc⟩

end

/-- An instruction of the listing begins at `pc`. -/
def Listed (code : Code) (pc : Nat) : Prop := ∃ i ∈ listing code, i.pc = pc

instance (code : Code) (pc : Nat) : Decidable (Listed code pc) :=
  inferInstanceAs (Decidable (∃ i ∈ listing code, i.pc = pc))

theorem readFrom_of_mem_listing {code : Code} {i : Instruction} (h : i ∈ listing code) :
    i.ReadFrom code.toList :=
  readFrom_of_mem List.drop_zero h

theorem listed_zero (code : Code) : code.size = 0 ∨ Listed code 0 := by
  by_cases hempty : code.toList = []
  · left
    rw [← Array.length_toList, hempty]
    rfl
  · exact .inr (exists_mem_listingFrom 0 hempty)

theorem listed_finish {code : Code} {i : Instruction} (h : i ∈ listing code)
    (hle : i.finish ≤ code.size) : i.finish = code.size ∨ Listed code i.finish := by
  rcases exists_mem_finish List.drop_zero h with hend | hnext
  · rw [Array.length_toList] at hend
    exact .inl (Nat.le_antisymm hle hend)
  · exact .inr hnext

end WordMachine
