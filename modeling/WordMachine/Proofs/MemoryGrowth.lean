import WordMachine.Memory

/-!
# Growth of memory

An access lets memory grow to a whole number of words and changes no byte that
it does not write.  `Successor` says what every access that is granted keeps:
the bound stays, the size does not fall, and a size that is a whole number of
words within the bound is followed by another one.
-/

namespace WordMachine

namespace Memory

/-! ## Growing -/

theorem size_zeroFill (count : Nat) (bytes : ByteArray) :
    (zeroFill count bytes).size = bytes.size + count := by
  induction count generalizing bytes with
  | zero => rfl
  | succ count ih =>
      rw [zeroFill, ih, ByteArray.size_push]
      omega

theorem byteAt_eq_getElem! (m : Memory) (address : Nat) :
    m.byteAt address = m.bytes[address]! := by
  rw [byteAt, getElem!_def]
  cases m.bytes[address]? <;> rfl

/-- Zeros put behind the last byte were read there before. -/
theorem getElem!_zeroFill (count : Nat) (bytes : ByteArray) (i : Nat) :
    (zeroFill count bytes)[i]! = bytes[i]! := by
  induction count generalizing bytes with
  | zero => rfl
  | succ count ih =>
      rw [zeroFill, ih, ByteArray.getElem!_push]
      split
      · next h =>
          rw [getElem!_neg bytes i (by omega)]
          rfl
      · rfl

@[simp] theorem size_growTo (m : Memory) (size : Nat) :
    (m.growTo size).size = max m.size size := by
  have h := size_zeroFill (size - m.size) m.bytes
  simp only [Memory.size, growTo] at h ⊢
  omega

@[simp] theorem limit_growTo (m : Memory) (size : Nat) : (m.growTo size).limit = m.limit := rfl

@[simp] theorem byteAt_growTo (m : Memory) (size address : Nat) :
    (m.growTo size).byteAt address = m.byteAt address := by
  rw [byteAt_eq_getElem!, byteAt_eq_getElem!]
  exact getElem!_zeroFill _ _ _

@[simp] theorem window_growTo (m : Memory) (size offset length : Nat) :
    (m.growTo size).window offset length = m.window offset length := by
  simp only [window, byteAt_growTo]

@[simp] theorem growTo_size (m : Memory) : m.growTo m.size = m := by
  simp only [growTo, Nat.sub_self, zeroFill]

@[simp] theorem length_window (m : Memory) (offset length : Nat) :
    (m.window offset length).length = length := by
  simp [window]

/-! ## Writing -/

theorem size_splice (buffer : ByteArray) (offset : Nat) (bytes : List UInt8) :
    (splice buffer offset bytes).size = buffer.size := by
  induction bytes generalizing buffer offset with
  | nil => rfl
  | cons b rest ih => rw [splice, ih, ByteArray.size_set!]

@[simp] theorem size_overwrite (m : Memory) (offset : Nat) (bytes : List UInt8) :
    (m.overwrite offset bytes).size = m.size :=
  size_splice _ _ _

@[simp] theorem limit_overwrite (m : Memory) (offset : Nat) (bytes : List UInt8) :
    (m.overwrite offset bytes).limit = m.limit := rfl

/-- Places in front of the range and behind it keep their bytes. -/
theorem getElem!_splice_of_outside (buffer : ByteArray) (offset : Nat) (bytes : List UInt8)
    {i : Nat} (h : i < offset ∨ offset + bytes.length ≤ i) :
    (splice buffer offset bytes)[i]! = buffer[i]! := by
  induction bytes generalizing buffer offset with
  | nil => rfl
  | cons b rest ih =>
      rw [List.length_cons] at h
      have hrest : i < offset + 1 ∨ offset + 1 + rest.length ≤ i := by omega
      have hne : offset ≠ i := by omega
      rw [splice, ih _ _ hrest, ByteArray.getElem!_set!_ne _ _ _ _ hne]

theorem byteAt_overwrite_of_outside (m : Memory) (offset : Nat) (bytes : List UInt8)
    {address : Nat} (h : address < offset ∨ offset + bytes.length ≤ address) :
    (m.overwrite offset bytes).byteAt address = m.byteAt address := by
  rw [byteAt_eq_getElem!, byteAt_eq_getElem!]
  exact getElem!_splice_of_outside _ _ _ h

/-- Places within the range get the bytes, if the buffer has these places. -/
theorem getElem!_splice_of_inside (buffer : ByteArray) (offset : Nat) (bytes : List UInt8)
    {i : Nat} (hi : i < bytes.length) (hroom : offset + bytes.length ≤ buffer.size) :
    (splice buffer offset bytes)[offset + i]! = bytes[i] := by
  induction bytes generalizing buffer offset i with
  | nil => cases hi
  | cons b rest ih =>
      rw [List.length_cons] at hroom
      rw [splice]
      cases i with
      | zero =>
          have hsize : offset < buffer.size := by omega
          change (splice (buffer.set! offset b) (offset + 1) rest)[offset]! = b
          rw [getElem!_splice_of_outside _ _ _ (.inl (Nat.lt_add_one offset)),
            ByteArray.getElem!_set!_self _ _ _ hsize]
      | succ i =>
          have hrest : offset + 1 + rest.length ≤ (buffer.set! offset b).size := by
            rw [ByteArray.size_set!]
            omega
          rw [← Nat.add_assoc, Nat.add_right_comm, ih _ _ (Nat.lt_of_succ_lt_succ hi) hrest]
          rfl

theorem byteAt_overwrite_of_inside (m : Memory) (offset : Nat) (bytes : List UInt8) {i : Nat}
    (hi : i < bytes.length) (hroom : offset + bytes.length ≤ m.size) :
    (m.overwrite offset bytes).byteAt (offset + i) = bytes[i] := by
  rw [byteAt_eq_getElem!]
  exact getElem!_splice_of_inside _ _ _ hi hroom

@[simp] theorem length_fit (length : Nat) (bytes : List UInt8) :
    (fit length bytes).length = length := by
  simp only [fit, List.length_append, List.length_replicate, List.length_drop]
  omega

/-! ## Granted accesses -/

theorem dvd_aligned (n : Nat) : 32 ∣ aligned n := Nat.dvd_mul_left 32 _

theorem le_aligned (n : Nat) : n ≤ aligned n := by
  unfold aligned
  omega

/-- A range that is granted lies within the size, or the size becomes the least
whole number of words that covers it, if there can be so many. -/
theorem reach_eq_ok_iff {m : Memory} {offset length size : Nat} :
    m.reach offset length = .ok size ↔ offset + length < Word.sizeBound ∧
      (offset + length ≤ m.size ∧ size = m.size ∨
        m.size < offset + length ∧ size = aligned (offset + length) ∧
          size < Word.sizeBound ∧ size ≤ m.limit ∧ size ≤ blockBound) := by
  unfold reach
  dsimp only
  split
  · next hstop =>
      constructor
      · rintro ⟨⟩
      · intro h
        omega
  · next hstop =>
      split
      · next hinside =>
          constructor
          · rintro ⟨⟩
            exact ⟨Nat.lt_of_not_le hstop, .inl ⟨hinside, rfl⟩⟩
          · rintro ⟨-, ⟨-, rfl⟩ | ⟨houtside, -⟩⟩
            · rfl
            · omega
      · next houtside =>
          split
          · next hbounds =>
              constructor
              · rintro ⟨⟩
              · rintro ⟨-, ⟨hinside, -⟩ | ⟨-, rfl, hgranted⟩⟩
                · omega
                · omega
          · next hbounds =>
              constructor
              · rintro ⟨⟩
                refine ⟨Nat.lt_of_not_le hstop, .inr ⟨Nat.lt_of_not_le houtside, rfl, ?_⟩⟩
                omega
              · rintro ⟨-, ⟨hinside, -⟩ | ⟨-, rfl, -⟩⟩
                · omega
                · rfl

theorem reach_eq_ok {m : Memory} {offset length size : Nat}
    (h : m.reach offset length = .ok size) :
    offset + length ≤ m.size ∧ size = m.size ∨
      m.size < offset + length ∧ size = aligned (offset + length) ∧ size ≤ m.limit := by
  rcases reach_eq_ok_iff.mp h with ⟨-, hinside | ⟨houtside, hsize, -, hlimit, -⟩⟩
  · exact .inl hinside
  · exact .inr ⟨houtside, hsize, hlimit⟩

theorem reach_eq_error {m : Memory} {offset length : Nat} {fault : Fault}
    (h : m.reach offset length = .error fault) : fault = .invalidMemoryOffset := by
  unfold reach at h
  dsimp only at h
  split at h
  · cases h
    rfl
  · split at h
    · cases h
    · split at h
      · cases h
        rfl
      · cases h

theorem checkWidth_of_unit {width : Nat} (h : width = 1 ∨ width = 32) :
    checkWidth width = .ok () :=
  if_pos h

theorem read_eq_ok {m after : Memory} {offset length : Nat} {bytes : List UInt8}
    (h : m.read offset length = .ok (bytes, after)) :
    ∃ size, m.reach offset length = .ok size ∧
      bytes = m.window offset length ∧ after = m.growTo size := by
  obtain ⟨-, -, h⟩ := Fault.bind_eq_ok_iff.mp h
  obtain ⟨size, hreach, h⟩ := Fault.bind_eq_ok_iff.mp h
  cases h
  exact ⟨size, hreach, rfl, rfl⟩

theorem read_eq_error {m : Memory} {offset length : Nat} {fault : Fault}
    (hlength : length = 1 ∨ length = 32) (h : m.read offset length = .error fault) :
    fault = .invalidMemoryOffset := by
  rw [read, checkWidth_of_unit hlength, Fault.ok_bind] at h
  rcases Fault.bind_eq_error_iff.mp h with h | ⟨size, -, h⟩
  · exact reach_eq_error h
  · cases h

theorem write_eq_ok {m after : Memory} {offset length : Nat} {bytes : List UInt8}
    (h : m.write offset bytes length = .ok after) :
    ∃ size, m.reach offset length = .ok size ∧
      after = (m.growTo size).overwrite offset (fit length bytes) := by
  obtain ⟨-, -, h⟩ := Fault.bind_eq_ok_iff.mp h
  obtain ⟨size, hreach, h⟩ := Fault.bind_eq_ok_iff.mp h
  cases h
  exact ⟨size, hreach, rfl⟩

theorem write_eq_error {m : Memory} {offset length : Nat} {bytes : List UInt8} {fault : Fault}
    (hlength : length = 1 ∨ length = 32) (h : m.write offset bytes length = .error fault) :
    fault = .invalidMemoryOffset := by
  rw [write, checkWidth_of_unit hlength, Fault.ok_bind] at h
  rcases Fault.bind_eq_error_iff.mp h with h | ⟨size, -, h⟩
  · exact reach_eq_error h
  · cases h

theorem readRange_eq_ok {m after : Memory} {offset length : Nat} {bytes : List UInt8}
    (h : m.readRange offset length = .ok (bytes, after)) :
    ∃ size, m.reachRange offset length = .ok size ∧
      bytes = m.window offset length ∧ after = m.growTo size := by
  obtain ⟨size, hreach, h⟩ := Fault.bind_eq_ok_iff.mp h
  cases h
  exact ⟨size, hreach, rfl, rfl⟩

theorem readRange_eq_error {m : Memory} {offset length : Nat} {fault : Fault}
    (h : m.readRange offset length = .error fault) : fault = .invalidMemoryOffset := by
  rcases Fault.bind_eq_error_iff.mp h with h | ⟨size, -, h⟩
  · unfold reachRange at h
    split at h
    · cases h
    · exact reach_eq_error h
  · cases h

/-- The size is a whole number of words within the bound. -/
structure Whole (m : Memory) : Prop where
  words : 32 ∣ m.size
  bounded : m.size ≤ m.limit

theorem whole_withLimit (limit : Nat) : Whole (withLimit limit) :=
  ⟨Nat.dvd_zero 32, Nat.zero_le _⟩

/-- What is left of a memory after an access that was granted. -/
structure Successor (before after : Memory) : Prop where
  limit : after.limit = before.limit
  size : before.size ≤ after.size
  whole : before.Whole → after.Whole

namespace Successor

protected theorem refl (m : Memory) : Successor m m := ⟨rfl, Nat.le_refl _, id⟩

protected theorem trans {m₁ m₂ m₃ : Memory} (h : Successor m₁ m₂) (h' : Successor m₂ m₃) :
    Successor m₁ m₃ :=
  ⟨h'.limit.trans h.limit, Nat.le_trans h.size h'.size, fun hwhole ↦ h'.whole (h.whole hwhole)⟩

theorem growTo {m : Memory} {offset length size : Nat}
    (h : m.reach offset length = .ok size) : Successor m (m.growTo size) := by
  refine ⟨rfl, ?_, ?_⟩
  · rw [size_growTo]
    exact Nat.le_max_left _ _
  · intro hwhole
    rcases reach_eq_ok h with ⟨-, rfl⟩ | ⟨hstop, rfl, hlimit⟩
    · simpa using hwhole
    · have hsize : (m.growTo (aligned (offset + length))).size =
          aligned (offset + length) := by
        have := le_aligned (offset + length)
        rw [size_growTo]
        omega
      refine ⟨?_, ?_⟩
      · rw [hsize]
        exact dvd_aligned _
      · rw [hsize]
        exact hlimit

theorem overwrite {before after : Memory} (h : Successor before after) (offset : Nat)
    (bytes : List UInt8) : Successor before (after.overwrite offset bytes) := by
  refine ⟨h.limit, ?_, fun hwhole ↦ ⟨?_, ?_⟩⟩
  · simpa using h.size
  · simpa using (h.whole hwhole).words
  · simpa using (h.whole hwhole).bounded

theorem read {m after : Memory} {offset length : Nat} {bytes : List UInt8}
    (h : m.read offset length = .ok (bytes, after)) : Successor m after := by
  obtain ⟨size, hreach, -, rfl⟩ := read_eq_ok h
  exact growTo hreach

theorem write {m after : Memory} {offset length : Nat} {bytes : List UInt8}
    (h : m.write offset bytes length = .ok after) : Successor m after := by
  obtain ⟨size, hreach, rfl⟩ := write_eq_ok h
  exact (growTo hreach).overwrite _ _

theorem readRange {m after : Memory} {offset length : Nat} {bytes : List UInt8}
    (h : m.readRange offset length = .ok (bytes, after)) : Successor m after := by
  obtain ⟨size, hreach, -, rfl⟩ := readRange_eq_ok h
  unfold reachRange at hreach
  split at hreach
  · cases hreach
    rw [growTo_size]
    exact .refl m
  · exact growTo hreach

end Successor

end Memory

end WordMachine
