import WordMachine.Machine
import WordMachine.Proofs.MemoryGrowth
import WordMachine.Proofs.StrictWords

/-!
# Strict access to stack, memory and code

The stack lies in a block with its top last, and memory and code are blocks of
bytes; every access computes places in a block and takes a word, or a part, that
has to be there.  With strict operators these accesses come to what they come to
without: the stack is measured before it is read, memory grows before it is read
or written, and an immediate is looked for in the code before it is taken out.
-/

namespace WordMachine

namespace Strict

/-! ## The stack -/

/-- Puts a word at the end of the block. -/
def pushLast (s : Stack) (w : Word) : Except Fault Stack :=
  if Stack.capacity ≤ s.depth then .error .stackOverflow
  else .ok ⟨(s.words.reverse ++ [w]).reverse⟩

/-- Takes the last word off the block. -/
def popLast (s : Stack) : Except Fault (Word × Stack) :=
  match s.words.reverse.getLast? with
  | none => .error .stackUnderflow
  | some w => .ok (w, ⟨s.words.reverse.dropLast.reverse⟩)

/-- The word `i` places below the top. -/
def wordBelow (s : Stack) (i : Nat) : Option Word := do
  let last ← minus s.depth 1
  s.words.reverse[← minus last i]?

def top (s : Stack) (n : Nat) : Option (Except Fault (Vector Word n)) :=
  if s.depth < n then some (.error .stackUnderflow)
  else do
    let ws ← Vector.ofFnM fun i : Fin n ↦ wordBelow s i
    return .ok ws

/-- Cuts the last `n` words off the block. -/
def truncate (s : Stack) (n : Nat) : Option Stack := do
  let length ← minus s.depth n
  return ⟨(s.words.reverse.take length).reverse⟩

def dropN (s : Stack) (n : Nat) : Option (Except Fault Stack) :=
  if s.depth < n then some (.error .stackUnderflow)
  else do return .ok (← truncate s n)

def peek (s : Stack) (position : Nat) : Option (Except Fault Word) :=
  if position = 0 ∨ s.depth < position then some (.error .stackUnderflow)
  else do return .ok (← s.words.reverse[← minus s.depth position]?)

def dup (s : Stack) (position : Nat) : Option (Except Fault Stack) := do
  let found ← peek s position
  return found >>= pushLast s

def swap (s : Stack) (distance : Nat) : Option (Except Fault Stack) :=
  if distance = 0 ∨ s.depth ≤ distance then some (.error .stackUnderflow)
  else do
    let last ← minus s.depth 1
    let place ← minus last distance
    let upper ← s.words.reverse[last]?
    let lower ← s.words.reverse[place]?
    return .ok ⟨((s.words.reverse.set last lower).set place upper).reverse⟩

theorem pushLast_eq (s : Stack) (w : Word) : pushLast s w = s.push w := by
  rw [pushLast, Stack.push, List.reverse_append, List.reverse_reverse]
  by_cases hroom : s.depth < Stack.capacity
  · rw [if_neg (Nat.not_le_of_lt hroom), if_pos hroom]
    rfl
  · rw [if_pos (Nat.le_of_not_lt hroom), if_neg hroom]

theorem popLast_eq (s : Stack) : popLast s = s.pop := by
  obtain ⟨words⟩ := s
  cases words with
  | nil => rfl
  | cons w rest =>
      simp only [popLast, Stack.pop, List.reverse_cons, List.getLast?_concat,
        List.dropLast_concat, List.reverse_reverse]

/-- What lies `i` places below the top lies as many places in front of the end. -/
theorem getElem?_reverse_of_lt {α : Type} (xs : List α) {i place : Nat} (h : i < xs.length)
    (hplace : place = xs.length - 1 - i) : xs.reverse[place]? = some xs[i] := by
  have hback : xs.length - 1 - place = i := by omega
  rw [List.getElem?_reverse (by omega), hback, List.getElem?_eq_getElem h]

theorem wordBelow_eq {s : Stack} {i : Nat} (h : i < s.words.length) :
    wordBelow s i = some s.words[i] := by
  have hlast : minus s.depth 1 = some (s.words.length - 1) :=
    minus_of_le (Nat.succ_le_of_lt (Nat.zero_lt_of_lt h))
  have hplace : minus (s.words.length - 1) i = some (s.words.length - 1 - i) :=
    minus_of_le (Nat.le_sub_one_of_lt h)
  rw [wordBelow, hlast, Option.bind_eq_bind, Option.bind_some, hplace, Option.bind_some,
    getElem?_reverse_of_lt _ h rfl]

theorem top_eq (s : Stack) (n : Nat) : top s n = some (s.top n) := by
  by_cases hshort : s.depth < n
  · have hsize : (s.words.take n).toArray.size ≠ n := by
      rw [List.size_toArray, List.length_take]
      simp only [Stack.depth] at hshort
      omega
    rw [top, if_pos hshort, Stack.top, dif_neg hsize]
  · have henough : n ≤ s.words.length := Nat.le_of_not_lt hshort
    have hwords : (fun i : Fin n ↦ wordBelow s i) =
        fun i : Fin n ↦ pure (s.words.get (i.castLE henough)) := by
      funext i
      exact wordBelow_eq (Nat.lt_of_lt_of_le i.isLt henough)
    have hsize : (s.words.take n).toArray.size = n := by
      rw [List.size_toArray, List.length_take_of_le henough]
    rw [top, if_neg hshort, hwords, Vector.ofFnM_pure, Stack.top, dif_pos hsize]
    refine congrArg (fun ws ↦ some (Except.ok ws)) (Vector.ext fun i hi ↦ ?_)
    simp

theorem truncate_eq {s : Stack} {n : Nat} (h : n ≤ s.depth) :
    truncate s n = some ⟨s.words.drop n⟩ := by
  have hback : s.words.length - (s.words.length - n) = n := Nat.sub_sub_self h
  rw [truncate, minus_of_le h, Option.bind_eq_bind, Option.bind_some, Stack.depth,
    List.take_reverse, hback, List.reverse_reverse]
  rfl

theorem dropN_eq (s : Stack) (n : Nat) : dropN s n = some (s.dropN n) := by
  by_cases hshort : s.depth < n
  · rw [dropN, if_pos hshort, Stack.dropN, if_neg (Nat.not_le_of_lt hshort)]
  · have henough := Nat.le_of_not_lt hshort
    rw [dropN, if_neg hshort, truncate_eq henough, Stack.dropN, if_pos henough]
    rfl

theorem peek_eq (s : Stack) (position : Nat) : peek s position = some (s.peek position) := by
  cases position with
  | zero => rfl
  | succ i =>
      by_cases hshort : s.depth < i + 1
      · have hnone : s.words[i]? = none := List.getElem?_eq_none (Nat.le_of_lt_succ hshort)
        rw [peek, if_pos (.inr hshort), Stack.peek, hnone]
      · have henough : i < s.words.length := Nat.lt_of_not_le fun h ↦ hshort (Nat.lt_succ_of_le h)
        have hplace : minus s.depth (i + 1) = some (s.words.length - (i + 1)) :=
          minus_of_le henough
        have hfound : s.words.reverse[s.words.length - (i + 1)]? = some s.words[i] :=
          getElem?_reverse_of_lt _ henough (by omega)
        have hnot : ¬(i + 1 = 0 ∨ s.depth < i + 1) := fun h ↦ h.elim nofun hshort
        rw [peek, if_neg hnot, hplace, Option.bind_eq_bind, Option.bind_some, hfound, Stack.peek,
          List.getElem?_eq_getElem henough]
        rfl

theorem dup_eq (s : Stack) (position : Nat) : dup s position = some (s.dup position) := by
  have hpush : pushLast s = s.push := funext (pushLast_eq s)
  rw [dup, peek_eq, hpush]
  rfl

/-- A place counted from the bottom is one counted from the top. -/
theorem set_reverse {α : Type} (xs : List α) {i : Nat} (h : i < xs.length) (a : α) :
    xs.reverse.set i a = (xs.set (xs.length - 1 - i) a).reverse := by
  apply List.ext_getElem
  · simp
  · intro j hj _
    have hlength : j < xs.length := by simpa using hj
    have hplace : (i = j) = (xs.length - 1 - i = xs.length - 1 - j) := by
      apply propext
      omega
    simp only [List.getElem_reverse, List.getElem_set, List.length_set, hplace]

theorem swap_eq (s : Stack) (distance : Nat) : swap s distance = some (s.swap distance) := by
  obtain ⟨words⟩ := s
  cases distance with
  | zero => cases words <;> rfl
  | succ i =>
      rcases words with _ | ⟨upper, rest⟩
      · rfl
      · by_cases hshort : Stack.depth ⟨upper :: rest⟩ ≤ i + 1
        · have hnone : rest[i]? = none := List.getElem?_eq_none (Nat.le_of_succ_le_succ hshort)
          simp only [swap, Stack.swap, hshort, or_true, if_true, hnone]
        · have henough : i < rest.length := Nat.lt_of_not_le fun h ↦ hshort (Nat.succ_le_succ h)
          have hnot : ¬(i + 1 = 0 ∨ Stack.depth ⟨upper :: rest⟩ ≤ i + 1) :=
            fun h ↦ h.elim nofun hshort
          have hlast : minus (Stack.depth ⟨upper :: rest⟩) 1 = some rest.length :=
            minus_of_le (Nat.le_add_left 1 _)
          have hplace : minus rest.length (i + 1) = some (rest.length - (i + 1)) :=
            minus_of_le henough
          have hupper : (upper :: rest).reverse[rest.length]? = some upper :=
            getElem?_reverse_of_lt (upper :: rest) (Nat.zero_lt_succ _) rfl
          have hlower : (upper :: rest).reverse[rest.length - (i + 1)]? = some rest[i] :=
            getElem?_reverse_of_lt (upper :: rest) (Nat.succ_lt_succ henough) rfl
          have hblock : (((upper :: rest).reverse.set rest.length rest[i]).set
              (rest.length - (i + 1)) upper).reverse = rest[i] :: rest.set i upper := by
            have hfirst : (upper :: rest).length - 1 - rest.length = 0 := Nat.sub_self _
            have hsecond : (rest[i] :: rest).length - 1 - (rest.length - (i + 1)) = i + 1 :=
              Nat.sub_sub_self henough
            rw [set_reverse _ (Nat.lt_succ_self _), hfirst, List.set_cons_zero,
              set_reverse _ (Nat.lt_succ_of_le (Nat.sub_le _ _)), hsecond, List.set_cons_succ,
              List.reverse_reverse]
          simp only [swap, hnot, if_false, hlast, hplace, hupper, hlower, Option.bind_eq_bind,
            Option.bind_some, Option.pure_def, hblock, Stack.swap, List.getElem?_eq_getElem henough]

/-! ## Memory -/

/-- Room for what is missing has to be had before memory grows. -/
def reach (m : Memory) (offset length : Nat) : Option (Except Fault Nat) :=
  let stop := offset + length
  if Word.sizeBound ≤ stop then some (.error .invalidMemoryOffset)
  else if stop ≤ m.size then some (.ok m.size)
  else
    let size := Memory.aligned stop
    if Word.sizeBound ≤ size ∨ m.limit < size then some (.error .invalidMemoryOffset)
    else do
      let missing ← minus size m.size
      if Memory.blockBound < m.size + missing then return .error .invalidMemoryOffset
      else return .ok size

def window (m : Memory) (offset length : Nat) : Option (List UInt8) := do
  slice m.bytes.data.toList offset (← plus offset length)

/-- Copies bytes onto the part of a buffer from `start` on, in front of `stop`,
which has to be as long as they are. -/
def copy (buffer : ByteArray) (start stop : Nat) (bytes : List UInt8) : Option ByteArray :=
  if start ≤ stop ∧ stop ≤ buffer.size ∧ bytes.length = stop - start then
    some (Memory.splice buffer start bytes)
  else none

/-- Writes the last `length` bytes, or else zeros and then all of them. -/
def overwrite (m : Memory) (offset : Nat) (bytes : List UInt8) (length : Nat) : Option Memory := do
  let stop ← plus offset length
  if length ≤ bytes.length then
    let low ← slice bytes (← minus bytes.length length) bytes.length
    return { m with bytes := ← copy m.bytes offset stop low }
  else
    let pad ← minus length bytes.length
    let middle ← plus offset pad
    let cleared ← copy m.bytes offset middle (List.replicate pad 0)
    return { m with bytes := ← copy cleared middle stop bytes }

theorem reach_eq (m : Memory) (offset length : Nat) :
    reach m offset length = some (m.reach offset length) := by
  simp only [reach, Memory.reach]
  by_cases hstop : Word.sizeBound ≤ offset + length
  · simp only [hstop, if_true]
  · by_cases hinside : offset + length ≤ m.size
    · simp only [hstop, hinside, if_true, if_false]
    · have hle := Memory.le_aligned (offset + length)
      have hmissing : minus (Memory.aligned (offset + length)) m.size =
          some (Memory.aligned (offset + length) - m.size) := minus_of_le (by omega)
      have hsize : m.size + (Memory.aligned (offset + length) - m.size) =
          Memory.aligned (offset + length) := by omega
      simp only [hstop, hinside, if_false, hmissing, Option.bind_eq_bind, Option.bind_some, hsize]
      grind

theorem window_eq {m : Memory} {offset length : Nat} (hinside : offset + length ≤ m.size)
    (hstop : offset + length < Word.sizeBound) :
    window m offset length = some (m.window offset length) := by
  have hsize : m.bytes.data.toList.length = m.size := rfl
  have hpart : (m.bytes.data.toList.drop offset).take (offset + length - offset) =
      m.window offset length := by
    apply List.ext_getElem
    · rw [List.length_take, List.length_drop, hsize, Memory.length_window]
      omega
    · intro i _ hi
      have hplace : offset + i < m.bytes.size := by
        rw [Memory.length_window] at hi
        exact Nat.lt_of_lt_of_le (Nat.add_lt_add_left hi _) hinside
      simp [Memory.window, Memory.byteAt, hplace]
      rfl
  rw [window, plus_of_lt hstop, Option.bind_eq_bind, Option.bind_some,
    slice_of_le (Nat.le_add_right _ _) (hsize ▸ hinside), hpart]

theorem splice_append (buffer : ByteArray) (offset : Nat) (front bytes : List UInt8) :
    Memory.splice buffer offset (front ++ bytes) =
      Memory.splice (Memory.splice buffer offset front) (offset + front.length) bytes := by
  induction front generalizing buffer offset with
  | nil => rfl
  | cons b front ih =>
      rw [List.cons_append, Memory.splice, ih, Memory.splice, List.length_cons]
      congr 1
      omega

theorem copy_of_le (buffer : ByteArray) {start stop : Nat} (bytes : List UInt8)
    (hstop : stop ≤ buffer.size) (hlength : start + bytes.length = stop) :
    copy buffer start stop bytes = some (Memory.splice buffer start bytes) :=
  if_pos ⟨by omega, hstop, by omega⟩

theorem overwrite_eq {m : Memory} {offset length : Nat} (bytes : List UInt8)
    (hinside : offset + length ≤ m.size) (hstop : offset + length < Word.sizeBound) :
    overwrite m offset bytes length = some (m.overwrite offset (Memory.fit length bytes)) := by
  rw [overwrite, plus_of_lt hstop, Option.bind_eq_bind, Option.bind_some]
  by_cases hlong : length ≤ bytes.length
  · have hlow : slice bytes (bytes.length - length) bytes.length =
        some (bytes.drop (bytes.length - length)) := slice_to_end (Nat.sub_le _ _) rfl
    have hfit : Memory.fit length bytes = bytes.drop (bytes.length - length) := by
      simp [Memory.fit, Nat.sub_eq_zero_of_le hlong]
    have hcopy := copy_of_le m.bytes (bytes.drop (bytes.length - length)) hinside (by
      rw [List.length_drop, Nat.sub_sub_self hlong])
    simp only [hlong, if_true, minus_of_le hlong, Option.bind_eq_bind, Option.bind_some, hlow,
      hcopy, Option.pure_def, hfit, Memory.overwrite]
  · obtain ⟨pad, rfl⟩ := Nat.exists_eq_add_of_le' (Nat.le_of_not_le hlong)
    have hpad : minus (pad + bytes.length) bytes.length = some pad := by
      rw [minus_of_le (Nat.le_add_left _ _), Nat.add_sub_cancel]
    have hmiddle : plus offset pad = some (offset + pad) := plus_of_lt (by omega)
    have hzeros : (List.replicate pad (0 : UInt8)).length = pad := List.length_replicate
    have hclear : copy m.bytes offset (offset + pad) (List.replicate pad 0) =
        some (Memory.splice m.bytes offset (List.replicate pad 0)) :=
      copy_of_le _ _ (Nat.le_trans (by omega) hinside) (by rw [hzeros])
    have hcopy : copy (Memory.splice m.bytes offset (List.replicate pad 0)) (offset + pad)
        (offset + (pad + bytes.length)) bytes = some (Memory.splice
          (Memory.splice m.bytes offset (List.replicate pad 0)) (offset + pad) bytes) :=
      copy_of_le _ _ (by rw [Memory.size_splice]; exact hinside) (Nat.add_assoc _ _ _)
    have hfit : Memory.fit (pad + bytes.length) bytes = List.replicate pad 0 ++ bytes := by
      simp [Memory.fit]
    simp only [hlong, if_false, hpad, hmiddle, hclear, hcopy, Option.bind_eq_bind, Option.bind_some,
      Option.pure_def, hfit, Memory.overwrite, splice_append, hzeros]

/-! ## Words as bytes -/

def ofBytes (bytes : List UInt8) : Option (Except Fault Word) := do
  if 32 < bytes.length then
    let excess ← minus bytes.length 32
    let high ← slice bytes 0 excess
    let low ← slice bytes excess bytes.length
    if high.all (· == 0) then return .ok (← ofBigEndian low) else return .error .stackValueTooBig
  else return .ok (← ofBigEndian bytes)

def toBytes (w : Word) (length : Nat) : Option (List UInt8) := do
  if 32 ≤ length then
    return List.replicate (← minus length 32) 0 ++ w.toBytes 32
  else slice (w.toBytes 32) (← minus 32 length) 32

theorem ofBytes_eq (bytes : List UInt8) : ofBytes bytes = some (Word.ofBytes bytes) := by
  by_cases hlong : 32 < bytes.length
  · have hexcess : minus bytes.length 32 = some (bytes.length - 32) :=
      minus_of_le (Nat.le_of_lt hlong)
    have hhigh : slice bytes 0 (bytes.length - 32) = some (bytes.take (bytes.length - 32)) :=
      slice_of_le (Nat.zero_le _) (Nat.sub_le _ _)
    have hlow : slice bytes (bytes.length - 32) bytes.length =
        some (bytes.drop (bytes.length - 32)) := slice_to_end (Nat.sub_le _ _) rfl
    have hlength : (bytes.drop (bytes.length - 32)).length ≤ 32 := by
      rw [List.length_drop]
      omega
    simp only [ofBytes, hlong, if_true, hexcess, hhigh, hlow, ofBigEndian_of_le hlength,
      Option.bind_eq_bind, Option.bind_some, Option.pure_def, Word.ofBytes]
    split <;> rfl
  · have hshort := Nat.le_of_not_lt hlong
    simp only [ofBytes, hlong, if_false, ofBigEndian_of_le hshort, Option.bind_eq_bind,
      Option.bind_some, Option.pure_def, Word.ofBytes_of_length_le hshort]

theorem toBytes_eq (w : Word) (length : Nat) : toBytes w length = some (w.toBytes length) := by
  by_cases hlong : 32 ≤ length
  · obtain ⟨pad, rfl⟩ := Nat.exists_eq_add_of_le' hlong
    have hhigh : w.toNat / Nat.pow 256 32 = 0 := Nat.div_eq_of_lt w.isLt
    have hbytes : w.toBytes (pad + 32) = List.replicate pad 0 ++ w.toBytes 32 := by
      rw [Word.toBytes, Word.lowBytes_add, hhigh, Word.lowBytes_zero]
      rfl
    have hpad : minus (pad + 32) 32 = some pad := minus_of_le hlong
    simp only [toBytes, hlong, if_true, hpad, Option.bind_eq_bind, Option.bind_some,
      Option.pure_def, hbytes]
  · obtain ⟨front, hfront⟩ := Nat.exists_eq_add_of_le' (Nat.le_of_not_le hlong)
    have hminus : minus 32 length = some front := by
      rw [minus_of_le (Nat.le_of_not_le hlong), hfront, Nat.add_sub_cancel]
    have hbytes : (w.toBytes 32).drop front = w.toBytes length := by
      rw [Word.toBytes, hfront, Word.lowBytes_add]
      exact List.drop_left' (Word.length_lowBytes _ _ _)
    have hslice : slice (w.toBytes 32) front 32 = some (w.toBytes length) := by
      rw [slice_to_end (by omega) (Word.length_toBytes _ _), hbytes]
    simp only [toBytes, hlong, if_false, hminus, Option.bind_eq_bind, Option.bind_some, hslice]

/-! ## Immediates -/

def immediate (code : Code) (pc size : Nat) : Option (Except Fault Word) := do
  let last ← plus pc size
  if code.size ≤ last then return .error (.pcOutOfBounds last)
  else ofBytes (← slice code.toList (← plus pc 1) (← plus last 1))

theorem immediate_eq (code : Code) {pc size : Nat} (h : pc + size + 1 < Word.sizeBound) :
    immediate code pc size = some (code.immediate pc size) := by
  have hlast : plus pc size = some (pc + size) := plus_of_lt (Nat.lt_of_succ_lt h)
  by_cases hshort : code.size ≤ pc + size
  · simp [immediate, Code.immediate, hlast, hshort, Nat.not_lt.mpr hshort]
  · have hinside := Nat.lt_of_not_le hshort
    have hstart : plus pc 1 = some (pc + 1) := plus_of_lt (by omega)
    have hstop : plus (pc + size) 1 = some (pc + size + 1) := plus_of_lt h
    have hslice : slice code.toList (pc + 1) (pc + size + 1) =
        some (code.extract (pc + 1) (pc + size + 1)).toList := by
      rw [slice_of_le (by omega) (Nat.succ_le_of_lt hinside), Array.toList_extract,
        List.extract_eq_take_drop]
    simp only [immediate, Code.immediate, hlast, hshort, hinside, hstart, hstop, hslice, if_true,
      if_false, Option.bind_eq_bind, Option.bind_some, ofBytes_eq]

end Strict

end WordMachine
