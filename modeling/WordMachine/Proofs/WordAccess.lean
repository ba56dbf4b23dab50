import WordMachine.Proofs.BigEndian
import WordMachine.Proofs.Footprint
import WordMachine.Proofs.MemoryMap

/-!
# Words in memory

Memory holds a word at every address, made of the 32 bytes from there on, and the
words at neighbouring addresses overlap.  Loading reads one of them and leaves all
as they are.  What a store does to them is said byte by byte: the windows of the
store and of the word may overlap in any way, and a byte of the word is a byte of
the stored value exactly where they do.
-/

namespace WordMachine

namespace Word

/-! ## Bytes of words -/

theorem toNat_byte {j : Nat} (hj : j < 32) (w : Word) :
    (byte (BitVec.ofNat 256 j) w).toNat = w.toNat / Nat.pow 256 (31 - j) % 256 := by
  have hindex : (BitVec.ofNat 256 j).toNat = j := by
    rw [BitVec.toNat_ofNat]
    exact Nat.mod_eq_of_lt (Nat.lt_trans hj (by decide))
  have hpower : 2 ^ (8 * (31 - j)) = Nat.pow 256 (31 - j) := Nat.pow_mul 2 8 (31 - j)
  rw [byte, hindex, if_pos hj, BitVec.toNat_setWidth, BitVec.extractLsb'_toNat,
    Nat.shiftRight_eq_div_pow, hpower]
  omega

theorem byte_ofNat_accumulate {bytes : List UInt8} (hlength : bytes.length = 32) {j : Nat}
    (hj : j < bytes.length) :
    byte (BitVec.ofNat 256 j) (BitVec.ofNat 256 (accumulate 0 bytes)) =
      BitVec.ofNat 256 bytes[j].toNat := by
  have hsplit : bytes.take j ++ bytes[j] :: bytes.drop (j + 1) = bytes := by simp
  have hback : (bytes.drop (j + 1)).length = 31 - j := by
    rw [List.length_drop]
    omega
  have hvalue : accumulate 0 bytes < 2 ^ 256 := by
    have hlt := accumulate_lt bytes
    rw [hlength] at hlt
    exact hlt
  have hdigit := accumulate_div_mod (bytes.take j) (bytes.drop (j + 1)) bytes[j]
  rw [hsplit, hback] at hdigit
  apply BitVec.eq_of_toNat_eq
  rw [toNat_byte (hlength ▸ hj), BitVec.toNat_ofNat, BitVec.toNat_ofNat,
    Nat.mod_eq_of_lt hvalue, hdigit]
  exact (Nat.mod_eq_of_lt (Nat.lt_trans bytes[j].toNat_lt (by decide))).symm

theorem ofNat_accumulate_toBytes (w : Word) :
    BitVec.ofNat 256 (accumulate 0 (w.toBytes 32)) = w := by
  apply BitVec.eq_of_toNat_eq
  have hlt : w.toNat < Nat.pow 256 32 := w.isLt
  rw [toBytes, accumulate_lowBytes, Nat.mod_eq_of_lt hlt, BitVec.ofNat_toNat, BitVec.setWidth_eq]

theorem getElem?_toBytes (w : Word) {j : Nat} (hj : j < 32) :
    (w.toBytes 32)[j]?.map (fun b ↦ BitVec.ofNat 256 b.toNat) =
      some (byte (BitVec.ofNat 256 j) w) := by
  have hinside : j < (w.toBytes 32).length := by rwa [length_toBytes]
  rw [List.getElem?_eq_getElem hinside, Option.map_some,
    ← byte_ofNat_accumulate (length_toBytes w 32), ofNat_accumulate_toBytes]

/-- A word is known by its bytes. -/
theorem ext_byte {a b : Word}
    (h : ∀ j < 32, byte (BitVec.ofNat 256 j) a = byte (BitVec.ofNat 256 j) b) : a = b := by
  have hbytes : a.toBytes 32 = b.toBytes 32 := by
    apply List.ext_getElem?
    intro j
    by_cases hj : j < 32
    · have hsame := (getElem?_toBytes a hj).trans ((congrArg some (h j hj)).trans
        (getElem?_toBytes b hj).symm)
      refine Option.map_injective ?_ hsame
      intro x y hxy
      have hnat := congrArg BitVec.toNat hxy
      rw [BitVec.toNat_ofNat, BitVec.toNat_ofNat] at hnat
      have hx := x.toNat_lt
      have hy := y.toNat_lt
      apply UInt8.toNat_inj.mp
      omega
    · rw [List.getElem?_eq_none (by simpa using hj), List.getElem?_eq_none (by simpa using hj)]
  rw [← ofNat_accumulate_toBytes a, hbytes, ofNat_accumulate_toBytes]

end Word

namespace Memory

/-- The word whose highest byte stands at the address. -/
def wordAt (m : Memory) (address : Nat) : Word :=
  BitVec.ofNat 256 (Word.accumulate 0 (m.window address 32))

theorem byte_wordAt (m : Memory) (address : Nat) {j : Nat} (hj : j < 32) :
    Word.byte (BitVec.ofNat 256 j) (m.wordAt address) =
      BitVec.ofNat 256 (m.byteAt (address + j)).toNat := by
  have hlength := m.length_window address 32
  rw [wordAt, Word.byte_ofNat_accumulate hlength (hlength ▸ hj)]
  simp [window]

theorem wordAt_growTo (m : Memory) (size address : Nat) :
    (m.growTo size).wordAt address = m.wordAt address := by
  rw [wordAt, window_growTo, wordAt]

theorem le_size_of_reach {m : Memory} {offset length size : Nat}
    (h : m.reach offset length = .ok size) : offset + length ≤ (m.growTo size).size := by
  rw [size_growTo]
  rcases reach_eq_ok h with ⟨hinside, -⟩ | ⟨-, rfl, -⟩
  · exact Nat.le_trans hinside (Nat.le_max_left _ _)
  · exact Nat.le_trans (le_aligned _) (Nat.le_max_right _ _)

section

variable {m after : Memory} {offset length address j : Nat}

theorem byteAt_write {bytes : List UInt8} (h : m.write offset bytes length = .ok after)
    (address : Nat) : after.byteAt address = m.view.put offset length bytes address := by
  obtain ⟨size, hreach, rfl⟩ := write_eq_ok h
  rw [byteAt_overwrite_fit _ _ (le_size_of_reach hreach), put_growTo]

theorem ofNat_lastByte_toBytes (value : Word) (hj : j < 32) :
    BitVec.ofNat 256 (ByteMap.lastByte 32 (value.toBytes 32) j).toNat =
      Word.byte (BitVec.ofNat 256 j) value := by
  have hlength := Word.length_toBytes value 32
  have hbyte := Word.getElem?_toBytes value hj
  rw [List.getElem?_eq_getElem (hlength ▸ hj), Option.map_some] at hbyte
  rw [ByteMap.lastByte, hlength, if_pos (Nat.le_add_right 32 j), Nat.add_sub_cancel_left,
    List.getElem?_eq_getElem (hlength ▸ hj), Option.getD_some]
  exact Option.some.inj hbyte

theorem byte_wordAt_write_word {value : Word}
    (h : m.write offset (value.toBytes 32) 32 = .ok after) (hj : j < 32) :
    Word.byte (BitVec.ofNat 256 j) (after.wordAt address) =
      if offset ≤ address + j ∧ address + j < offset + 32 then
        Word.byte (BitVec.ofNat 256 (address + j - offset)) value
      else Word.byte (BitVec.ofNat 256 j) (m.wordAt address) := by
  rw [byte_wordAt _ _ hj, byteAt_write h, ByteMap.put]
  split
  · next hinside =>
      apply ofNat_lastByte_toBytes
      omega
  · exact (byte_wordAt m address hj).symm

theorem byte_wordAt_write_byte {value : Word}
    (h : m.write offset (value.toBytes 1) 1 = .ok after) (hj : j < 32) :
    Word.byte (BitVec.ofNat 256 j) (after.wordAt address) =
      if address + j = offset then BitVec.ofNat 256 (value.toNat % 256)
      else Word.byte (BitVec.ofNat 256 j) (m.wordAt address) := by
  rw [byte_wordAt _ _ hj, byteAt_write h, ByteMap.put]
  by_cases hplace : address + j = offset
  · have hinside : offset ≤ address + j ∧ address + j < offset + 1 := by omega
    have hdigit : (UInt8.ofNat (value.toNat % 256)).toNat = value.toNat % 256 :=
      UInt8.toNat_ofNat_of_lt' (Nat.mod_lt _ (by decide))
    rw [if_pos hinside, if_pos hplace, hplace, Nat.sub_self]
    exact congrArg (BitVec.ofNat 256) hdigit
  · have houtside : ¬(offset ≤ address + j ∧ address + j < offset + 1) := by omega
    rw [if_neg houtside, if_neg hplace]
    exact (byte_wordAt m address hj).symm

/-- The word that has just been written is found again, without growth. -/
theorem wordAt_write_word {value : Word}
    (h : m.write offset (value.toBytes 32) 32 = .ok after) : after.wordAt offset = value := by
  apply Word.ext_byte
  intro j hj
  rw [byte_wordAt_write_word h hj, if_pos (by omega), Nat.add_sub_cancel_left]

theorem reach_write {bytes : List UInt8} (h : m.write offset bytes length = .ok after) :
    after.reach offset length = .ok after.size := by
  obtain ⟨size, hreach, rfl⟩ := write_eq_ok h
  have hbound := (reach_eq_ok_iff.mp hreach).1
  have hroom := le_size_of_reach hreach
  rw [reach_eq_ok_iff, size_overwrite]
  exact ⟨hbound, .inl ⟨hroom, rfl⟩⟩

end

end Memory

namespace Outcome

variable {m : Memory} {o : Outcome} {place value : Word}

theorem ofLoad_eq_wordAt (h : ofLoad m place = .ok o) :
    ∃ size, o = ⟨[m.wordAt place.toNat], m.growTo size, .next⟩ := by
  obtain ⟨offset, hoffset, h⟩ := Fault.bind_eq_ok_iff.mp h
  obtain ⟨⟨bytes, after⟩, hread, h⟩ := Fault.bind_eq_ok_iff.mp h
  obtain ⟨size, -, rfl, rfl⟩ := Memory.read_eq_ok hread
  dsimp only at h
  rw [Word.ofBytes_of_length_le (Nat.le_of_eq (Memory.length_window _ _ _)), Fault.ok_bind] at h
  cases h
  rw [toOffset_eq_ok hoffset]
  exact ⟨size, rfl⟩

theorem ofStore_eq_write {width : Nat} (h : ofStore m place value width = .ok o) :
    place.toOffset = .ok place.toNat ∧
      ∃ after, m.write place.toNat (value.toBytes width) width = .ok after ∧
        o = ⟨[], after, .next⟩ := by
  obtain ⟨offset, hoffset, h⟩ := Fault.bind_eq_ok_iff.mp h
  obtain ⟨after, hwrite, h⟩ := Fault.bind_eq_ok_iff.mp h
  cases h
  rw [toOffset_eq_ok hoffset]
  exact ⟨hoffset, after, hwrite, rfl⟩

/-- A range that lies within the size is loaded as it stands. -/
theorem ofLoad_of_reach (hoffset : place.toOffset = .ok place.toNat)
    (hreach : m.reach place.toNat 32 = .ok m.size) :
    ofLoad m place = .ok ⟨[m.wordAt place.toNat], m, .next⟩ := by
  have hvalue := Word.ofBytes_of_length_le (Nat.le_of_eq (m.length_window place.toNat 32))
  simp only [ofLoad, hoffset, Fault.ok_bind, Memory.read, Memory.checkWidth_of_unit (.inr rfl),
    hreach, Fault.pure_eq_ok, hvalue, Memory.growTo_size]
  rfl

end Outcome

namespace Operation

variable {m after : Machine} {flow : Flow} {place value : Word} {below : List Word}

theorem effect_of_perform {op : Operation} (hdepth : m.stack.depth ≤ Stack.capacity)
    (h : op.perform.run m = .ok flow after) : op.effect m = .ok (flow, after) := by
  rw [op.perform_eq_effect hdepth] at h
  exact Action.allOrNothing_eq_ok h

theorem outcome_of_perform {op : Operation} (operands : List Word)
    (hdepth : m.stack.depth ≤ Stack.capacity) (hwords : m.stack.words = operands ++ below)
    (hlength : operands.length = op.inputs) (h : op.perform.run m = .ok flow after) :
    ∃ o, op.outcome m operands = .ok o ∧
      after = { m with stack := ⟨o.results ++ below⟩, memory := o.memory } := by
  have heffect := effect_of_perform hdepth h
  rw [effect_of_operands op operands below hwords hlength] at heffect
  obtain ⟨o, houtcome, hplace⟩ := Fault.bind_eq_ok_iff.mp heffect
  exact ⟨o, houtcome, (Outcome.place_eq_ok hplace).2.2⟩

theorem perform_mload_eq (hdepth : m.stack.depth ≤ Stack.capacity)
    (hwords : m.stack.words = place :: below) (h : mload.perform.run m = .ok flow after) :
    ∃ size, after =
      { m with
        stack := ⟨m.memory.wordAt place.toNat :: below⟩
        memory := m.memory.growTo size } := by
  obtain ⟨o, houtcome, rfl⟩ := outcome_of_perform [place] hdepth hwords rfl h
  obtain ⟨size, rfl⟩ := Outcome.ofLoad_eq_wordAt houtcome
  exact ⟨size, rfl⟩

theorem perform_mload_of_reach (hdepth : m.stack.depth ≤ Stack.capacity)
    (hwords : m.stack.words = place :: below) (hoffset : place.toOffset = .ok place.toNat)
    (hreach : m.memory.reach place.toNat 32 = .ok m.memory.size) :
    mload.perform.run m =
      .ok .next { m with stack := ⟨m.memory.wordAt place.toNat :: below⟩ } := by
  have hroom : Stack.depth ⟨below⟩ < Stack.capacity := by
    rw [Stack.depth, hwords] at hdepth
    exact hdepth
  have houtcome : mload.outcome m [place] = .ok ⟨[m.memory.wordAt place.toNat], m.memory, .next⟩ :=
    Outcome.ofLoad_of_reach hoffset hreach
  rw [mload.perform_eq_effect hdepth, effect_of_operands mload [place] below hwords rfl, houtcome,
    Fault.ok_bind, Outcome.place_singleton _ _ _ _ hroom]
  rfl

/-- The words in memory before and after a load, a store and a store of one byte,
each of which has been carried out.  A load that follows on a store at the same
place succeeds and gives the stored word. -/
theorem words_after_access (m : Machine) (hdepth : m.stack.depth ≤ Stack.capacity) :
    (∀ address j, j < 32 → Word.byte (BitVec.ofNat 256 j) (m.memory.wordAt address) =
        BitVec.ofNat 256 (m.memory.byteAt (address + j)).toNat) ∧
      (∀ place below flow after, m.stack.words = place :: below →
        mload.perform.run m = .ok flow after →
        after.stack.words = m.memory.wordAt place.toNat :: below ∧
          ∀ address, after.memory.wordAt address = m.memory.wordAt address) ∧
      (∀ place value below flow after, m.stack.words = place :: value :: below →
        mstore.perform.run m = .ok flow after →
        (∀ address j, j < 32 → Word.byte (BitVec.ofNat 256 j) (after.memory.wordAt address) =
          if place.toNat ≤ address + j ∧ address + j < place.toNat + 32 then
            Word.byte (BitVec.ofNat 256 (address + j - place.toNat)) value
          else Word.byte (BitVec.ofNat 256 j) (m.memory.wordAt address)) ∧
        ∀ (later : Machine) (rest : List Word), later.memory = after.memory →
          later.stack.words = place :: rest → later.stack.depth ≤ Stack.capacity →
          mload.perform.run later = .ok .next { later with stack := ⟨value :: rest⟩ }) ∧
      ∀ place value below flow after, m.stack.words = place :: value :: below →
        mstore8.perform.run m = .ok flow after →
        ∀ address j, j < 32 → Word.byte (BitVec.ofNat 256 j) (after.memory.wordAt address) =
          if address + j = place.toNat then BitVec.ofNat 256 (value.toNat % 256)
          else Word.byte (BitVec.ofNat 256 j) (m.memory.wordAt address) := by
  refine ⟨?bytes, ?load, ?store, ?storeByte⟩
  case bytes =>
    intro address j hj
    exact m.memory.byte_wordAt address hj
  case load =>
    intro place below flow after hwords h
    obtain ⟨size, rfl⟩ := perform_mload_eq hdepth hwords h
    exact ⟨rfl, m.memory.wordAt_growTo size⟩
  case store =>
    intro place value below flow after hwords h
    obtain ⟨o, houtcome, rfl⟩ := outcome_of_perform [place, value] hdepth hwords rfl h
    obtain ⟨hoffset, memory, hwrite, rfl⟩ := Outcome.ofStore_eq_write houtcome
    refine ⟨fun address j hj ↦ Memory.byte_wordAt_write_word hwrite hj, ?_⟩
    intro later rest hmemory hlater hroom
    have hload := perform_mload_of_reach hroom hlater hoffset (by
      rw [hmemory]
      exact Memory.reach_write hwrite)
    rw [hload, hmemory, Memory.wordAt_write_word hwrite]
  case storeByte =>
    intro place value below flow after hwords h
    obtain ⟨o, houtcome, rfl⟩ := outcome_of_perform [place, value] hdepth hwords rfl h
    obtain ⟨-, memory, hwrite, rfl⟩ := Outcome.ofStore_eq_write houtcome
    intro address j hj
    exact Memory.byte_wordAt_write_byte hwrite hj

/-- A word of three bytes, to be stored at 3. -/
def storing : Machine := ⟨#[], 0, ⟨[3#256, 0x0a0b0c#256]⟩, Memory.withLimit 64⟩

/-- The word at 33 begins with the last byte but one of the value and goes on
behind it; stored alone, the last byte stands at 3. -/
theorem words_after_access_storing :
    ∃ whole single, mstore.perform.run storing = .ok .next whole ∧
      mstore8.perform.run storing = .ok .next single ∧
      Word.byte 0#256 (whole.memory.wordAt 33) = 0x0b#256 ∧
      Word.byte 2#256 (whole.memory.wordAt 33) = 0#256 ∧
      mload.perform.run { whole with stack := ⟨[3#256]⟩ } =
        .ok .next { whole with stack := ⟨[0x0a0b0c#256]⟩ } ∧
      Word.byte 0#256 (single.memory.wordAt 3) = 0x0c#256 := by
  obtain ⟨hbytes, -, hstore, hbyte⟩ := words_after_access storing (by decide)
  obtain ⟨hwhole, hload⟩ := hstore 3#256 0x0a0b0c#256 [] .next _ rfl rfl
  have hsingle := hbyte 3#256 0x0a0b0c#256 [] .next _ rfl rfl
  refine ⟨_, _, rfl, rfl, ?_, ?_, ?_, ?_⟩
  · exact (hwhole 33 0 (by decide)).trans (by decide)
  · refine (hwhole 33 2 (by decide)).trans ?_
    rw [if_neg (by decide)]
    exact (hbytes 33 2 (by decide)).trans (by decide)
  · exact hload _ [] rfl rfl (by decide)
  · exact (hsingle 3 0 (by decide)).trans (by decide)

end Operation

end WordMachine
