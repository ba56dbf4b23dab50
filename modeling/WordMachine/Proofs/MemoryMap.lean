import WordMachine.Proofs.InPlace

/-!
# Memory as a map

Whatever is asked of memory, in whatever order, it answers as a map from all
addresses to bytes does that begins with zeros, together with a size that only
tells how far memory has been used.  The map knows nothing of buffers: it refuses
a range by where it ends alone.  Memory grants at once what lies within its size,
and that is right because the size is itself a whole number of words that has
been granted before.
-/

namespace WordMachine

/-! ## Accesses -/

inductive AccessKind where
  | read
  | write (bytes : List UInt8)
  | readRange
deriving DecidableEq, Repr

/-- One request to memory. -/
structure Access where
  kind : AccessKind
  offset : Nat
  length : Nat
deriving DecidableEq, Repr

/-- The bytes that were asked for, none for a write. -/
abbrev Reply := Except Fault (List UInt8)

/-- Serves requests one after the other, whether they are granted or not. -/
def serveAll {σ : Type} (serve : σ → Access → Reply × σ) : σ → List Access → List Reply × σ
  | s, [] => ([], s)
  | s, a :: rest =>
    let (reply, s) := serve s a
    let (replies, s) := serveAll serve s rest
    (reply :: replies, s)

/-- Servers that answer one request alike, and stay related, answer all alike. -/
theorem serveAll_related {σ τ : Type} {f : σ → Access → Reply × σ} {g : τ → Access → Reply × τ}
    {r : σ → τ → Prop} {s : σ} {t : τ} (accesses : List Access) (h : r s t)
    (hstep : ∀ a ∈ accesses, ∀ s t, r s t →
      (f s a).1 = (g t a).1 ∧ r (f s a).2 (g t a).2) :
    (serveAll f s accesses).1 = (serveAll g t accesses).1 ∧
      r (serveAll f s accesses).2 (serveAll g t accesses).2 := by
  induction accesses generalizing s t with
  | nil => exact ⟨rfl, h⟩
  | cons a rest ih =>
      obtain ⟨hreply, hnext⟩ := hstep a List.mem_cons_self s t h
      have hrest := ih hnext fun b hb ↦ hstep b (List.mem_cons_of_mem a hb)
      exact ⟨congr (congrArg List.cons hreply) hrest.1, hrest.2⟩

namespace Access

def stop (a : Access) : Nat := a.offset + a.length

/-- Single bytes and words are the units of access; a range may have any length. -/
def Fits (a : Access) : Prop := a.kind = .readRange ∨ a.length = 1 ∨ a.length = 32

instance (a : Access) : Decidable a.Fits := inferInstanceAs (Decidable (_ ∨ _))

/-- A size that is needed and that the limit allows can be had as one block. -/
def Allocatable (limit : Nat) (a : Access) : Prop :=
  a.Fits → a.length ≠ 0 → Memory.aligned a.stop ≤ limit →
    Memory.aligned a.stop ≤ Memory.blockBound

end Access

/-! ## The map -/

/-- A byte at every address, and the extent that has been used. -/
structure ByteMap where
  byte : Nat → UInt8
  size : Nat

namespace ByteMap

def blank : ByteMap := ⟨fun _ ↦ 0, 0⟩

/-- A range that ends at `stop` needs more than there are addresses, or more than
the limit. -/
def Refused (limit stop : Nat) : Prop :=
  Word.sizeBound ≤ stop ∨ Word.sizeBound ≤ Memory.aligned stop ∨ limit < Memory.aligned stop

instance (limit stop : Nat) : Decidable (Refused limit stop) :=
  inferInstanceAs (Decidable (_ ∨ _))

/-- Byte `i` of the last `length` bytes, where a shorter string has zeros in
front. -/
def lastByte (length : Nat) (bytes : List UInt8) (i : Nat) : UInt8 :=
  if length ≤ bytes.length + i then bytes[bytes.length + i - length]?.getD 0 else 0

def reply (b : ByteMap) (a : Access) : List UInt8 :=
  match a.kind with
  | .write _ => []
  | _ => (List.range a.length).map fun i ↦ b.byte (a.offset + i)

/-- The bytes with others in the places from `offset` up to `offset + length`. -/
def put (b : ByteMap) (offset length : Nat) (bytes : List UInt8) (address : Nat) : UInt8 :=
  if offset ≤ address ∧ address < offset + length then lastByte length bytes (address - offset)
  else b.byte address

def after (b : ByteMap) (a : Access) : ByteMap where
  byte :=
    match a.kind with
    | .write bytes => b.put a.offset a.length bytes
    | _ => b.byte
  size := max b.size (Memory.aligned a.stop)

def serve (limit : Nat) (b : ByteMap) (a : Access) : Reply × ByteMap :=
  if ¬a.Fits then (.error (.invalidMemoryValueSize a.length), b)
  else if a.length = 0 then (.ok [], b)
  else if Refused limit a.stop then (.error .invalidMemoryOffset, b)
  else (.ok (b.reply a), b.after a)

end ByteMap

namespace Memory

def settle (m : Memory) : Except Fault (List UInt8 × Memory) → Reply × Memory
  | .ok (bytes, after) => (.ok bytes, after)
  | .error fault => (.error fault, m)

def serve (m : Memory) (a : Access) : Reply × Memory :=
  m.settle <|
    match a.kind with
    | .read => m.read a.offset a.length
    | .write bytes => do return ([], ← m.write a.offset bytes a.length)
    | .readRange => m.readRange a.offset a.length

def view (m : Memory) : ByteMap := ⟨m.byteAt, m.size⟩

/-! ## Ranges -/

theorem aligned_le_iff_of_dvd {n size : Nat} (h : 32 ∣ size) : aligned n ≤ size ↔ n ≤ size := by
  unfold aligned
  omega

/-- What memory keeps to while it serves under the limit. -/
structure Serving (limit : Nat) (m : Memory) : Prop where
  limit_eq : m.limit = limit
  whole : m.Whole
  size_lt : m.size < Word.sizeBound

theorem serving_withLimit (limit : Nat) : Serving limit (withLimit limit) :=
  ⟨rfl, whole_withLimit limit, Nat.two_pow_pos 64⟩

section

variable {m : Memory} {limit offset length : Nat}

theorem Serving.reach_of_refused (h : Serving limit m)
    (hrefused : ByteMap.Refused limit (offset + length)) :
    m.reach offset length = .error .invalidMemoryOffset := by
  cases hreach : m.reach offset length with
  | error fault => rw [reach_eq_error hreach]
  | ok size =>
      -- A range within the size is covered by it, so that the map would not refuse it.
      have hcovered : offset + length ≤ m.size → aligned (offset + length) ≤ m.size :=
        (aligned_le_iff_of_dvd h.whole.words).mpr
      have hbounded := h.whole.bounded
      have hlt := h.size_lt
      rw [h.limit_eq] at hbounded
      rw [reach_eq_ok_iff, h.limit_eq] at hreach
      unfold ByteMap.Refused at hrefused
      omega

theorem Serving.reach_of_not_refused (h : Serving limit m)
    (hgranted : ¬ByteMap.Refused limit (offset + length))
    (hblock : aligned (offset + length) ≤ blockBound) :
    m.reach offset length = .ok (max m.size (aligned (offset + length))) := by
  have hcovered := aligned_le_iff_of_dvd (n := offset + length) h.whole.words
  have hle := le_aligned (offset + length)
  rw [reach_eq_ok_iff, h.limit_eq]
  unfold ByteMap.Refused at hgranted
  omega

end

/-! ## One access -/

/-- Memory after an access that was granted. -/
def changed (m : Memory) (a : Access) (size : Nat) : Memory :=
  match a.kind with
  | .write bytes => (m.growTo size).overwrite a.offset (fit a.length bytes)
  | _ => m.growTo size

section

variable (m : Memory) {a : Access}

theorem checkWidth_of_not_fits (h : ¬a.Fits) :
    checkWidth a.length = .error (.invalidMemoryValueSize a.length) := by
  apply if_neg
  intro hunit
  exact h (.inr hunit)

theorem serve_of_not_fits (h : ¬a.Fits) :
    m.serve a = (.error (.invalidMemoryValueSize a.length), m) := by
  have hwidth := checkWidth_of_not_fits h
  obtain ⟨kind, offset, length⟩ := a
  cases kind with
  | read => simp only [serve, read, hwidth, Fault.error_bind, settle]
  | write bytes => simp only [serve, write, hwidth, Fault.error_bind, settle]
  | readRange => exact absurd (.inl rfl) h

theorem serve_of_empty (h : a.Fits) (hempty : a.length = 0) : m.serve a = (.ok [], m) := by
  have hrange : a.kind = .readRange := by
    apply h.resolve_right
    omega
  simp only [serve, hrange, readRange, reachRange, hempty, if_true, Fault.ok_bind, settle,
    Fault.pure_eq_ok, window, List.range_zero, List.map_nil, growTo_size]

theorem serve_of_reach (h : a.Fits) (hlength : a.length ≠ 0) :
    m.serve a = m.settle (do
      return (m.view.reply a, m.changed a (← m.reach a.offset a.length))) := by
  obtain ⟨kind, offset, length⟩ := a
  cases kind with
  | read =>
      have hunit := h.resolve_left (by intro hkind; cases hkind)
      simp only [serve, read, checkWidth_of_unit hunit, Fault.ok_bind]
      rfl
  | write bytes =>
      have hunit := h.resolve_left (by intro hkind; cases hkind)
      simp only [serve, write, checkWidth_of_unit hunit, Fault.ok_bind]
      cases m.reach offset length <;> rfl
  | readRange =>
      simp only [serve, readRange, reachRange, if_neg hlength]
      rfl

end

theorem getElem?_fit {length i : Nat} (bytes : List UInt8) (hi : i < length) :
    (fit length bytes)[i]? = some (ByteMap.lastByte length bytes i) := by
  rw [fit, List.getElem?_append, List.length_replicate]
  by_cases hinput : length ≤ bytes.length + i
  · have hbehind : ¬i < length - bytes.length := by omega
    have hindex : bytes.length - length + (i - (length - bytes.length)) =
        bytes.length + i - length := by omega
    have hinside : bytes.length + i - length < bytes.length := by omega
    rw [if_neg hbehind, List.getElem?_drop, hindex, ByteMap.lastByte, if_pos hinput,
      List.getElem?_eq_getElem hinside, Option.getD_some]
  · have hpadding : i < length - bytes.length := by omega
    rw [if_pos hpadding, List.getElem?_replicate, if_pos hpadding, ByteMap.lastByte, if_neg hinput]

/-- A write that the buffer has room for puts its bytes into the view. -/
theorem byteAt_overwrite_fit (m : Memory) {offset length : Nat} (bytes : List UInt8)
    (hroom : offset + length ≤ m.size) (address : Nat) :
    (m.overwrite offset (fit length bytes)).byteAt address =
      m.view.put offset length bytes address := by
  unfold ByteMap.put
  split
  · next hinside =>
      obtain ⟨i, rfl⟩ := Nat.exists_eq_add_of_le hinside.1
      have hi : i < length := Nat.lt_of_add_lt_add_left hinside.2
      obtain ⟨hfit, hbyte⟩ := List.getElem?_eq_some_iff.mp (getElem?_fit bytes hi)
      rw [byteAt_overwrite_of_inside _ _ _ hfit (by rwa [length_fit]), hbyte,
        Nat.add_sub_cancel_left]
  · next houtside =>
      have hoff : address < offset ∨ offset + (fit length bytes).length ≤ address := by
        rw [length_fit]
        omega
      exact byteAt_overwrite_of_outside _ _ _ hoff

theorem put_growTo (m : Memory) (size offset length : Nat) (bytes : List UInt8) (address : Nat) :
    (m.growTo size).view.put offset length bytes address =
      m.view.put offset length bytes address := by
  simp only [ByteMap.put, view, byteAt_growTo]

theorem byteAt_changed (m : Memory) (a : Access) {size : Nat} (hroom : a.stop ≤ size)
    (address : Nat) : (m.changed a size).byteAt address = (m.view.after a).byte address := by
  obtain ⟨kind, offset, length⟩ := a
  cases kind with
  | read | readRange => exact byteAt_growTo m size address
  | write bytes =>
      have hspace : offset + length ≤ (m.growTo size).size := by
        rw [size_growTo]
        exact Nat.le_trans hroom (Nat.le_max_right _ _)
      calc ((m.growTo size).overwrite offset (fit length bytes)).byteAt address
        _ = (m.growTo size).view.put offset length bytes address :=
            byteAt_overwrite_fit _ _ hspace address
        _ = m.view.put offset length bytes address := put_growTo m size offset length bytes address

theorem size_changed (m : Memory) (a : Access) (size : Nat) :
    (m.changed a size).size = max m.size size := by
  unfold changed
  split
  · rw [size_overwrite, size_growTo]
  · exact size_growTo m size

theorem view_changed (m : Memory) (a : Access) :
    (m.changed a (max m.size (aligned a.stop))).view = m.view.after a := by
  have hroom : a.stop ≤ max m.size (aligned a.stop) :=
    Nat.le_trans (le_aligned _) (Nat.le_max_right _ _)
  have hsize : (m.changed a (max m.size (aligned a.stop))).size = (m.view.after a).size := by
    rw [size_changed, ← Nat.max_assoc, Nat.max_self]
    rfl
  have hbyte : (m.changed a (max m.size (aligned a.stop))).byteAt = (m.view.after a).byte :=
    funext (byteAt_changed m a hroom)
  rw [view, hsize, hbyte]

theorem Serving.changed {m : Memory} {limit : Nat} (h : Serving limit m) {a : Access}
    (hreach : m.reach a.offset a.length = .ok (max m.size (aligned a.stop)))
    (hgranted : ¬ByteMap.Refused limit a.stop) :
    Serving limit (m.changed a (max m.size (aligned a.stop))) := by
  have hsuccessor : Successor m (m.changed a (max m.size (aligned a.stop))) := by
    unfold Memory.changed
    split
    · exact (Successor.growTo hreach).overwrite _ _
    · exact Successor.growTo hreach
  refine ⟨hsuccessor.limit.trans h.limit_eq, hsuccessor.whole h.whole, ?_⟩
  have hlt := h.size_lt
  rw [size_changed]
  unfold ByteMap.Refused at hgranted
  omega

/-- Memory and its view answer alike, and the view of what is left is what the map
has become. -/
theorem Serving.serve_view {m : Memory} {limit : Nat} (h : Serving limit m) (a : Access)
    (hblock : a.Allocatable limit) :
    (m.serve a).1 = (m.view.serve limit a).1 ∧ Serving limit (m.serve a).2 ∧
      (m.serve a).2.view = (m.view.serve limit a).2 := by
  unfold ByteMap.serve
  split
  · next hfits =>
      rw [serve_of_not_fits m hfits]
      exact ⟨rfl, h, rfl⟩
  · next hfits =>
      have hfits := Decidable.of_not_not hfits
      split
      · next hempty =>
          rw [serve_of_empty m hfits hempty]
          exact ⟨rfl, h, rfl⟩
      · next hlength =>
          rw [serve_of_reach m hfits hlength]
          split
          · next hrefused =>
              rw [h.reach_of_refused hrefused]
              exact ⟨rfl, h, rfl⟩
          · next hgranted =>
              have hlimit : aligned a.stop ≤ limit := by
                apply Nat.le_of_not_lt
                intro hover
                exact hgranted (.inr (.inr hover))
              have hreach := h.reach_of_not_refused hgranted (hblock hfits hlength hlimit)
              rw [hreach]
              exact ⟨rfl, h.changed hreach hgranted, view_changed m a⟩

end Memory

/-! ## Accesses in place -/

namespace Access

/-- Carries the access out in place. -/
def perform (a : Access) : Action (List UInt8) :=
  match a.kind with
  | .read => Action.read a.offset a.length
  | .write bytes => do
    Action.write a.offset bytes a.length
    return []
  | .readRange => Action.readRange a.offset a.length

end Access

namespace Machine

/-- The reply, and the machine as the access has left it. -/
def serve (m : Machine) (a : Access) : Reply × Machine :=
  match a.perform.run m with
  | .ok bytes after => (.ok bytes, after)
  | .error fault after => (.error fault, after)

/-- In place, an access that fails has changed nothing, and one that is granted
nothing but memory. -/
theorem serve_eq (m : Machine) (a : Access) :
    m.serve a = ((m.memory.serve a).1, { m with memory := (m.memory.serve a).2 }) := by
  obtain ⟨kind, offset, length⟩ := a
  cases kind with
  | read =>
      simp only [serve, Access.perform, Memory.serve, Action.run_read]
      cases m.memory.read offset length <;> rfl
  | write bytes =>
      simp only [serve, Access.perform, Memory.serve]
      cases h : m.memory.write offset bytes length <;> simp [h, Memory.settle]
  | readRange =>
      simp only [serve, Access.perform, Memory.serve, Action.run_readRange]
      cases m.memory.readRange offset length <;> rfl

end Machine

namespace Memory

/-- Replies and view of a memory that has served any requests are those of the
map, and requests that are served in place change nothing else of a machine. -/
theorem serves_as_map (limit : Nat) (accesses : List Access)
    (hblock : ∀ a ∈ accesses, a.Allocatable limit) :
    (serveAll serve (withLimit limit) accesses).1 =
        (serveAll (ByteMap.serve limit) ByteMap.blank accesses).1 ∧
      (serveAll serve (withLimit limit) accesses).2.view =
        (serveAll (ByteMap.serve limit) ByteMap.blank accesses).2 ∧
      ∀ m : Machine, m.memory = withLimit limit →
        serveAll Machine.serve m accesses =
          ((serveAll serve (withLimit limit) accesses).1,
            { m with memory := (serveAll serve (withLimit limit) accesses).2 }) := by
  obtain ⟨hreplies, -, hview⟩ := serveAll_related (r := fun m b ↦ Serving limit m ∧ m.view = b)
    (f := serve) (g := ByteMap.serve limit) (s := withLimit limit) (t := ByteMap.blank) accesses
    ⟨serving_withLimit limit, rfl⟩ (by
      rintro a ha m _ ⟨hserving, rfl⟩
      exact hserving.serve_view a (hblock a ha))
  refine ⟨hreplies, hview, ?_⟩
  intro m hm
  obtain ⟨hreplies, hmachine⟩ := serveAll_related (r := fun n memory ↦ n = { m with memory })
    (f := Machine.serve) (g := serve) (s := m) (t := withLimit limit) accesses (by rw [← hm]) (by
      rintro a - _ memory rfl
      rw [Machine.serve_eq]
      exact ⟨rfl, rfl⟩)
  exact Prod.ext hreplies hmachine

/-- Two bytes across a word boundary, read back and overwritten in part; then a
width and a range that are refused, and an empty range far away. -/
def sampleAccesses : List Access :=
  [⟨.write [0xab, 0xcd], 1, 32⟩, ⟨.readRange, 30, 4⟩, ⟨.write [0x11, 0x22], 31, 1⟩, ⟨.read, 0, 32⟩,
    ⟨.read, 0, 2⟩, ⟨.readRange, 60, 8⟩, ⟨.readRange, 1000000, 0⟩, ⟨.readRange, 31, 2⟩]

theorem serves_as_map_sampleAccesses :
    (serveAll serve (withLimit 64) sampleAccesses).1 =
        [.ok [], .ok [0, 0xab, 0xcd, 0], .ok [], .ok (List.replicate 31 0 ++ [0x22]),
          .error (.invalidMemoryValueSize 2), .error .invalidMemoryOffset, .ok [],
          .ok [0x22, 0xcd]] ∧
      (serveAll serve (withLimit 64) sampleAccesses).2.view.size = 64 := by
  have hblock : ∀ a ∈ sampleAccesses, a.Allocatable 64 := by
    intro a _ _ _ hlimit
    exact Nat.le_trans hlimit (by decide)
  obtain ⟨hreplies, hview, -⟩ := serves_as_map 64 sampleAccesses hblock
  rw [hreplies, hview]
  exact ⟨by rfl, by rfl⟩

end Memory

end WordMachine
