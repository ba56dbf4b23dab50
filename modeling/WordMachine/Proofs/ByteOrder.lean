import WordMachine.FileTree

/-!
# Names in the order of their bytes

Names are sorted as strings of characters.  Their order as strings of bytes is the
same, because the encoding of a character says in its first byte how long it is, a
longer one begins with a larger byte, and within one length the bits of the
character stand from the highest to the lowest.
-/

namespace WordMachine

namespace FileTree

/-- The bytes that stand for a name on the disk. -/
def nameBytes (name : String) : List UInt8 := name.toUTF8.data.toList

theorem nameBytes_eq (name : String) :
    nameBytes name = name.toList.flatMap String.utf8EncodeChar := by
  have h : (String.ofList name.toList).toByteArray.data.toList =
      name.toList.flatMap String.utf8EncodeChar := by
    rw [String.toByteArray_ofList, List.utf8Encode]
    simp
  rwa [String.ofList_toList] at h

theorem encode_ne_nil (c : Char) : String.utf8EncodeChar c ≠ [] := by
  unfold String.utf8EncodeChar
  dsimp only
  repeat' split
  all_goals exact List.cons_ne_nil _ _

/-- The first two characters that differ settle the order, whatever follows them. -/
theorem encode_append_lt {c d : Char} (h : c < d) (u v : List UInt8) :
    String.utf8EncodeChar c ++ u < String.utf8EncodeChar d ++ v := by
  have hcd : c.val.toNat < d.val.toNat := h
  have hd : d.val.toNat < 0x110000 := by
    rcases d.valid with h | h <;> omega
  simp only [String.utf8EncodeChar]
  generalize c.val.toNat = m at hcd
  generalize d.val.toNat = n at hcd hd
  -- One case for each pair of lengths; where the smaller character is the longer, `m < n` fails.
  repeat' split
  all_goals
    simp (disch := omega) only [List.cons_append, List.nil_append, List.cons_lt_cons_iff,
      UInt8.lt_iff_toNat_lt, ← UInt8.toNat_inj, UInt8.toNat_ofNat', Nat.mod_eq_of_lt]
    omega

theorem flatMap_encode_lt {cs ds : List Char} (h : cs < ds) :
    cs.flatMap String.utf8EncodeChar < ds.flatMap String.utf8EncodeChar := by
  induction cs generalizing ds with
  | nil =>
      cases ds with
      | nil => exact absurd h (List.lt_irrefl [])
      | cons d ds =>
          obtain ⟨b, bytes, hbytes⟩ := List.exists_cons_of_ne_nil (encode_ne_nil d)
          rw [List.flatMap_nil, List.flatMap_cons, hbytes, List.cons_append]
          exact List.nil_lt_cons b _
  | cons c cs ih =>
      cases ds with
      | nil => exact absurd h (List.not_lt_nil _)
      | cons d ds =>
          rw [List.flatMap_cons, List.flatMap_cons]
          rcases List.cons_lt_cons_iff.mp h with hcd | ⟨rfl, hrest⟩
          · exact encode_append_lt hcd _ _
          · exact List.append_left_lt (ih hrest)

theorem nameBytes_lt_iff {a b : String} : nameBytes a < nameBytes b ↔ a < b := by
  rw [nameBytes_eq, nameBytes_eq, String.lt_iff]
  constructor
  · intro h
    rcases Std.lt_trichotomy a.toList b.toList with hlt | heq | hgt
    · exact hlt
    · rw [heq] at h
      exact absurd h (List.lt_irrefl _)
    · exact absurd (flatMap_encode_lt hgt) (List.lt_asymm h)
  · exact flatMap_encode_lt

end FileTree

end WordMachine
