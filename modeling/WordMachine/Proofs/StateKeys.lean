import WordMachine.Fixture.Reading
import WordMachine.Proofs.ByteOrder

/-!
# The keys of a state

A fixture that has been read states its accounts as a map: no key occurs twice, and the
keys go by their bytes, whatever the order of the text was.  Of a record that is read,
a property holds if it holds of the blank one and every field keeps it.
-/

namespace WordMachine

/-! ## What readers give -/

theorem bind_eq_ok {ε α β : Type} {x : Except ε α} {f : α → Except ε β} {b : β}
    (h : (x >>= f) = .ok b) : ∃ a, x = .ok a ∧ f a = .ok b := by
  cases x with
  | error e => cases h
  | ok a => exact ⟨a, rfl, h⟩

namespace JsonReader

variable {α β : Type} {p : α → Prop} {q : β → Prop}

/-- Whatever the reader gives has the property. -/
def Gives (p : α → Prop) (reader : JsonReader α) : Prop :=
  ∀ bound cs a rest, reader bound cs = .ok (a, rest) → p a

theorem gives_true (reader : JsonReader α) : Gives (fun _ ↦ True) reader :=
  fun _ _ _ _ _ ↦ trivial

namespace Gives

variable {reader : JsonReader α}

theorem andThen (h : Gives p reader) {f : α → Except JsonProblem β}
    (hf : ∀ a b, p a → f a = .ok b → q b) : Gives q (reader.andThen f) := by
  intro bound cs b rest hread
  obtain ⟨⟨a, cs'⟩, ha, hread⟩ := bind_eq_ok hread
  obtain ⟨b', hb, hread⟩ := bind_eq_ok hread
  cases hread
  exact hf a b (h _ _ _ _ ha) hb

theorem optional (h : Gives p reader) : Gives (fun o ↦ ∀ a, o = some a → p a) reader.optional := by
  intro bound cs o rest hread
  unfold JsonReader.optional at hread
  split at hread
  · obtain ⟨cs', -, hread⟩ := bind_eq_ok hread
    cases hread
    exact nofun
  · obtain ⟨⟨a, cs'⟩, ha, hread⟩ := bind_eq_ok hread
    cases hread
    rintro _ ⟨⟩
    exact h _ _ _ _ ha

theorem elementsFrom (h : Gives p reader) {bound rounds : Nat} {first : Bool}
    {cs rest : List Char} {as : List α}
    (hread : elementsFrom reader bound rounds first cs = .ok (as, rest)) : ∀ a ∈ as, p a := by
  induction rounds generalizing first cs as with
  | zero => cases hread
  | succ rounds ih =>
      rw [JsonReader.elementsFrom] at hread
      obtain ⟨⟨more, cs'⟩, -, hread⟩ := bind_eq_ok hread
      cases more with
      | true =>
          obtain ⟨⟨a, cs'⟩, ha, hread⟩ := bind_eq_ok hread
          obtain ⟨⟨others, cs'⟩, hothers, hread⟩ := bind_eq_ok hread
          cases hread
          exact List.forall_mem_cons.mpr ⟨h _ _ _ _ ha, ih hothers⟩
      | false =>
          obtain ⟨cs', -, hread⟩ := bind_eq_ok hread
          cases hread
          exact nofun

theorem list (h : Gives p reader) : Gives (fun as ↦ ∀ a ∈ as, p a) (JsonReader.list reader) := by
  intro bound cs as rest hread
  unfold JsonReader.list at hread
  split at hread
  · exact h.elementsFrom hread
  · cases hread

theorem parse (h : Gives p reader) {text : String} {a : α} (hparse : reader.parse text = .ok a) :
    p a := by
  obtain ⟨⟨b, rest⟩, hb, hparse⟩ := bind_eq_ok hparse
  dsimp only at hparse
  split at hparse
  · cases hparse
    exact h _ _ _ _ hb
  · cases hparse

end Gives

end JsonReader

/-! ## Records -/

namespace JsonField

variable {α β : Type}

/-- A record has the property after the field has been read if it had it before. -/
def Keeps (p : α → Prop) (field : JsonField α) : Prop :=
  JsonReader.Gives (fun set ↦ ∀ a, p a → p (set a)) field.read

theorem keeps_of {p : α → Prop} {q : β → Prop} {reader : JsonReader β} (h : reader.Gives q)
    {set : β → α → α} (hset : ∀ b a, q b → p a → p (set b a)) (name : String)
    (need : FieldNeed) : Keeps p (JsonField.of name need reader set) := by
  refine h.andThen (f := fun b ↦ .ok (set b)) (q := fun set ↦ ∀ a, p a → p (set a)) ?_
  rintro b _ hb ⟨⟩ a ha
  exact hset b a hb ha

end JsonField

namespace JsonRecord

variable {α : Type} {p : α → Prop} {r : JsonRecord α} (h : ∀ field ∈ r.fields, field.Keeps p)
include h

theorem objectFrom_keeps {bound rounds : Nat} {first : Bool} {seen : List String} {a b : α}
    {cs rest : List Char} (ha : p a)
    (hread : r.objectFrom bound rounds first seen a cs = .ok (b, rest)) : p b := by
  induction rounds generalizing first seen a cs with
  | zero => cases hread
  | succ rounds ih =>
      rw [objectFrom] at hread
      obtain ⟨⟨key?, cs'⟩, -, hread⟩ := bind_eq_ok hread
      cases key? with
      | none =>
          dsimp only at hread
          split at hread
          · cases hread
          · cases hread
            exact ha
      | some key =>
          dsimp only at hread
          split at hread
          · next field hfield =>
              split at hread
              · cases hread
              · obtain ⟨cs', -, hread⟩ := bind_eq_ok hread
                obtain ⟨⟨set, cs'⟩, hset, hread⟩ := bind_eq_ok hread
                exact ih (h field (List.mem_of_find?_eq_some hfield) _ _ _ _ hset a ha) hread
          · obtain ⟨cs', -, hread⟩ := bind_eq_ok hread
            obtain ⟨cs', -, hread⟩ := bind_eq_ok hread
            exact ih ha hread

theorem listFrom_keeps {bound index : Nat} {fields : List (JsonField α)} {a b : α}
    {cs rest : List Char} (hfields : ∀ field ∈ fields, field ∈ r.fields) (ha : p a)
    (hread : r.listFrom index a fields bound cs = .ok (b, rest)) : p b := by
  induction fields generalizing index a cs with
  | nil =>
      rw [listFrom] at hread
      obtain ⟨cs', -, hread⟩ := bind_eq_ok hread
      cases hread
      exact ha
  | cons field fields ih =>
      have hrest : ∀ other ∈ fields, other ∈ r.fields :=
        fun other hother ↦ hfields other (List.mem_cons_of_mem _ hother)
      rw [listFrom] at hread
      obtain ⟨⟨more, cs'⟩, -, hread⟩ := bind_eq_ok hread
      cases more with
      | true =>
          obtain ⟨⟨set, cs'⟩, hset, hread⟩ := bind_eq_ok hread
          exact ih hrest (h field (hfields field List.mem_cons_self) _ _ _ _ hset a ha) hread
      | false =>
          dsimp only at hread
          split at hread
          · cases ‹false = true›
          · split at hread
            · exact ih hrest ha hread
            · cases hread

theorem gives_reader (hblank : p r.blank) : r.reader.Gives p := by
  intro bound cs a rest hread
  unfold reader at hread
  split at hread
  · exact listFrom_keeps h (fun _ ↦ id) hblank hread
  · exact objectFrom_keeps h hblank hread
  · cases hread

end JsonRecord

/-! ## Keys in order -/

namespace FixtureJson

variable {α : Type}

theorem mem_insertOrdered {key : String} {a : α} {xs : List (String × α)} {x : String × α}
    (h : x ∈ insertOrdered key a xs) : x = (key, a) ∨ x ∈ xs := by
  induction xs with
  | nil => exact .inl (List.mem_singleton.mp h)
  | cons y rest ih =>
      rw [insertOrdered] at h
      split at h
      · exact List.mem_cons.mp h
      · split at h
        · exact (List.mem_cons.mp h).imp_right (List.mem_cons_of_mem y)
        · rcases List.mem_cons.mp h with rfl | hrest
          · exact .inr List.mem_cons_self
          · exact (ih hrest).imp_right (List.mem_cons_of_mem y)

theorem pairwise_insertOrdered {xs : List (String × α)} (h : xs.Pairwise (·.1 < ·.1))
    (key : String) (a : α) : (insertOrdered key a xs).Pairwise (·.1 < ·.1) := by
  induction xs with
  | nil => exact List.pairwise_singleton _ _
  | cons y rest ih =>
      obtain ⟨hy, hrest⟩ := List.pairwise_cons.mp h
      rw [insertOrdered]
      split
      · next hbefore =>
          refine List.pairwise_cons.mpr ⟨?_, h⟩
          intro z hz
          rcases List.mem_cons.mp hz with rfl | hz
          · exact hbefore
          · exact String.lt_trans hbefore (hy z hz)
      · next hnotBefore =>
          split
          · next hsame =>
              subst hsame
              exact List.pairwise_cons.mpr ⟨hy, hrest⟩
          · next hother =>
              have hbehind : y.1 < key := by
                rcases Std.lt_trichotomy key y.1 with hlt | heq | hgt
                · exact absurd hlt hnotBefore
                · exact absurd heq hother
                · exact hgt
              refine List.pairwise_cons.mpr ⟨?_, ih hrest⟩
              intro z hz
              rcases mem_insertOrdered hz with rfl | hz
              · exact hbehind
              · exact hy z hz

theorem pairwise_ordered (entries : List (String × α)) :
    (ordered entries).Pairwise (·.1 < ·.1) := by
  have hfold : ∀ sorted : List (String × α), sorted.Pairwise (·.1 < ·.1) →
      (entries.foldl (fun sorted entry ↦ insertOrdered entry.1 entry.2 sorted) sorted).Pairwise
        (·.1 < ·.1) := by
    induction entries with
    | nil => exact fun _ ↦ id
    | cons entry rest ih => exact fun _ h ↦ ih _ (pairwise_insertOrdered h entry.1 entry.2)
  exact hfold [] .nil

end FixtureJson

namespace Fixture

/-- The accounts as they are given; none if nothing is said of them. -/
def entries (f : Fixture) : List (String × FixtureAccount) := f.state.getD []

/-- The keys are those of a map: they are distinct and go by their bytes. -/
def InByteOrder (accounts : List (String × FixtureAccount)) : Prop :=
  accounts.Pairwise fun x y ↦ FileTree.nameBytes x.1 < FileTree.nameBytes y.1

theorem inByteOrder_ordered (accounts : List (String × FixtureAccount)) :
    InByteOrder (FixtureJson.ordered accounts) :=
  (FixtureJson.pairwise_ordered accounts).imp FileTree.nameBytes_lt_iff.mpr

theorem gives_inByteOrder : FixtureJson.fixture.reader.Gives fun f ↦ InByteOrder f.entries := by
  apply JsonRecord.gives_reader
  · have hstate : FixtureJson.state.Gives InByteOrder := by
      refine (JsonReader.gives_true _).andThen
        (f := fun accounts ↦ .ok (FixtureJson.ordered accounts)) ?_
      rintro accounts _ - ⟨⟩
      exact inByteOrder_ordered accounts
    simp only [FixtureJson.fixture, FixtureJson.optionalField, List.forall_mem_cons]
    refine ⟨?_, ?_, ?_, ?_, ?_, ?state, ?_, nofun⟩
    case state =>
      refine JsonField.keeps_of hstate.optional ?_ _ _
      intro state f hgiven _
      cases state with
      | none => exact .nil
      | some accounts => exact hgiven accounts rfl
    -- The other fields leave the accounts alone.
    all_goals
      refine JsonField.keeps_of (JsonReader.gives_true _) ?_ _ _
      intro _ f _ hf
      exact hf
  · exact .nil

/-- The text holds the fixture, alone or in a list. -/
def HeldBy (f : Fixture) (text : String) : Prop :=
  parse text = .ok f ∨ ∃ fixtures, parseList text = .ok fixtures ∧ f ∈ fixtures

theorem HeldBy.inByteOrder {f : Fixture} {text : String} (h : f.HeldBy text) :
    InByteOrder f.entries := by
  rcases h with halone | ⟨fixtures, hlist, hmem⟩
  · exact gives_inByteOrder.parse halone
  · exact gives_inByteOrder.list.parse hlist f hmem

end Fixture

end WordMachine
