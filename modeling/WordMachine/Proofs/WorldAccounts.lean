import Mathlib.Data.Set.Card
import WordMachine.Fixture.Verdict
import WordMachine.Proofs.StateKeys

/-!
# The accounts of a world

A fixture states the accounts of its world under keys, which are texts, and several
texts can spell one address.  The accounts are put into the world in the order of the
keys.  So the last key that spells an address decides its account, and the first key
that spells none decides what the trouble is.
-/

namespace WordMachine

namespace Address

theorem ofBytes?_eq_some_iff {bytes : List UInt8} {address : Address} :
    ofBytes? bytes = some address ↔ bytes = address.bytes := by
  unfold ofBytes?
  split
  · next hlength =>
      rw [Option.some.injEq]
      constructor
      · rintro rfl
        rfl
      · rintro rfl
        rfl
  · next hlength =>
      constructor
      · intro h
        cases h
      · rintro rfl
        exact absurd address.length_bytes hlength

theorem ofBytes?_eq_none_iff {bytes : List UInt8} : ofBytes? bytes = none ↔ bytes.length ≠ 20 := by
  unfold ofBytes?
  split
  · next hlength => exact ⟨nofun, fun h ↦ absurd hlength h⟩
  · next hlength => exact ⟨fun _ ↦ hlength, fun _ ↦ rfl⟩

end Address

namespace FixtureAccount

theorem toAccount_eq_iff {given : FixtureAccount} {account : Account} :
    given.toAccount = account ↔
      account.balance = given.balance.getD 0#256 ∧
        account.code = (given.code.bind (·.bytecode)).getD [] := by
  constructor
  · rintro rfl
    exact ⟨rfl, rfl⟩
  · obtain ⟨balance, code⟩ := account
    rintro ⟨rfl, rfl⟩
    rfl

end FixtureAccount

/-! ## Insertions -/

namespace World

variable {w : World} {address other : Address} {account : Account}

/-- The addresses that have an account. -/
def addresses (w : World) : List Address := w.entries.map Prod.fst

theorem lookup_filter_of_ne (entries : List (Address × Account)) (h : other ≠ address) :
    (entries.filter fun entry ↦ entry.1 != address).lookup other = entries.lookup other := by
  induction entries with
  | nil => rfl
  | cons entry rest ih =>
      obtain ⟨key, account⟩ := entry
      by_cases hkey : key = address
      · subst hkey
        rw [List.filter_cons_of_neg (by simp), ih, List.lookup_cons, beq_false_of_ne h]
      · rw [List.filter_cons_of_pos (by simpa using hkey), List.lookup_cons, List.lookup_cons, ih]

theorem account?_insert :
    (w.insert address account).account? other =
      if other = address then some account else w.account? other := by
  unfold insert account?
  rw [List.lookup_cons]
  by_cases h : other = address
  · subst h
    rw [beq_self_eq_true, if_pos rfl]
  · rw [beq_false_of_ne h, if_neg h]
    exact lookup_filter_of_ne w.entries h

theorem account?_eq_none_iff : w.account? address = none ↔ address ∉ w.addresses := by
  rw [account?, List.lookup_eq_none_iff, addresses, List.mem_map, not_exists]
  constructor
  · rintro h entry ⟨hentry, rfl⟩
    exact absurd rfl (bne_iff_ne.mp (h entry hentry))
  · intro h entry hentry
    exact bne_iff_ne.mpr fun heq ↦ h entry ⟨hentry, heq.symm⟩

theorem addresses_insert :
    (w.insert address account).addresses =
      address :: w.addresses.filter (· != address) := by
  rw [addresses, addresses, List.filter_map]
  rfl

theorem nodup_addresses_insert (h : w.addresses.Nodup) :
    (w.insert address account).addresses.Nodup := by
  rw [addresses_insert, List.nodup_cons]
  refine ⟨?_, h.filter _⟩
  intro hmem
  exact absurd rfl (bne_iff_ne.mp (List.mem_filter.mp hmem).2)

theorem size_eq_ncard (h : w.addresses.Nodup) :
    w.size = {address | address ∈ w.addresses}.ncard := by
  rw [← List.coe_toFinset, Set.ncard_coe_finset, List.toFinset_card_of_nodup h, addresses,
    List.length_map]
  rfl

end World

/-! ## Keys -/

namespace Fixture

/-- The key is a text of the address, with or without its mark and its first zero. -/
def Spells (key : String) (address : Address) : Prop :=
  Hex.decodePadded key = .ok address.bytes

instance (key : String) (address : Address) : Decidable (Spells key address) :=
  inferInstanceAs (Decidable (_ = _))

/-- The trouble with a key that spells no address, and what is told of it. -/
inductive Rejected (key : String) : Trouble → String → Prop
  | notHex {error : HexError} (h : Hex.decodePadded key = .error error) :
      Rejected key (.addressNotHex error) ("Hex error: " ++ error.message)
  | wrongLength {bytes : List UInt8} (h : Hex.decodePadded key = .ok bytes)
      (hlength : bytes.length ≠ 20) :
      Rejected key (.addressLength key) ("Parse error: invalid state address: " ++ key)

section

variable {key : String} {address : Address} {trouble : Trouble}

theorem Spells.unique {other : Address} (h : Spells key address) (hother : Spells key other) :
    address = other := by
  have hbytes : address.bytes = other.bytes := Except.ok.inj (h.symm.trans hother)
  cases address
  cases other
  cases hbytes
  rfl

theorem readAddress_of_spells (h : Spells key address) : readAddress key = .ok address := by
  have hbytes : Hex.decodePadded key = .ok address.bytes := h
  simp only [readAddress, hbytes, Address.ofBytes?_eq_some_iff.mpr rfl]

theorem readAddress_of_rejected {message : String} (h : Rejected key trouble message) :
    readAddress key = .error trouble := by
  cases h with
  | notHex h => simp only [readAddress, h]
  | wrongLength h hlength =>
      simp only [readAddress, h, Address.ofBytes?_eq_none_iff.mpr hlength]

theorem spells_or_rejected (key : String) :
    (∃ address, Spells key address) ∨ ∃ trouble, Rejected key trouble trouble.message := by
  cases hbytes : Hex.decodePadded key with
  | error error => exact .inr ⟨.addressNotHex error, .notHex hbytes⟩
  | ok bytes =>
      by_cases hlength : bytes.length = 20
      · exact .inl ⟨⟨bytes, hlength⟩, hbytes⟩
      · exact .inr ⟨.addressLength key, .wrongLength hbytes hlength⟩

end

/-! ## One key after the other -/

/-- All keys spell addresses. -/
def Addressed (accounts : List (String × FixtureAccount)) : Prop :=
  ∀ entry ∈ accounts, ∃ address, Spells entry.1 address

/-- The trouble is with a key that has only good keys in front of it. -/
def FirstRejected (accounts : List (String × FixtureAccount)) (trouble : Trouble) : Prop :=
  ∃ front entry back, accounts = front ++ entry :: back ∧ Addressed front ∧
    Rejected entry.1 trouble trouble.message

section

variable {w after : World} {accounts : List (String × FixtureAccount)} {trouble : Trouble}

theorem addAccounts_cons_of_spells {key : String} {address : Address} (h : Spells key address)
    (given : FixtureAccount) (rest : List (String × FixtureAccount)) :
    addAccounts w ((key, given) :: rest) =
      addAccounts (w.insert address given.toAccount) rest := by
  rw [addAccounts, readAddress_of_spells h]
  rfl

theorem addAccounts_cons_of_rejected {key message : String} (h : Rejected key trouble message)
    (given : FixtureAccount) (rest : List (String × FixtureAccount)) :
    addAccounts w ((key, given) :: rest) = .error trouble := by
  rw [addAccounts, readAddress_of_rejected h]
  rfl

theorem exists_addAccounts (h : Addressed accounts) (w : World) :
    ∃ after, addAccounts w accounts = .ok after := by
  induction accounts generalizing w with
  | nil => exact ⟨w, rfl⟩
  | cons entry rest ih =>
      obtain ⟨address, hspells⟩ := h entry List.mem_cons_self
      rw [addAccounts_cons_of_spells hspells]
      exact ih (fun other hother ↦ h other (List.mem_cons_of_mem _ hother)) _

theorem addAccounts_of_firstRejected (h : FirstRejected accounts trouble) (w : World) :
    addAccounts w accounts = .error trouble := by
  obtain ⟨front, entry, back, rfl, hfront, hrejected⟩ := h
  induction front generalizing w with
  | nil => exact addAccounts_cons_of_rejected hrejected entry.2 back
  | cons first front ih =>
      obtain ⟨address, hspells⟩ := hfront first List.mem_cons_self
      rw [List.cons_append, addAccounts_cons_of_spells hspells]
      exact ih _ fun other hother ↦ hfront other (List.mem_cons_of_mem _ hother)

theorem addressed_or_firstRejected (accounts : List (String × FixtureAccount)) :
    Addressed accounts ∨ ∃ trouble, FirstRejected accounts trouble := by
  induction accounts with
  | nil => exact .inl fun _ h ↦ absurd h List.not_mem_nil
  | cons entry rest ih =>
      rcases spells_or_rejected entry.1 with ⟨address, hspells⟩ | ⟨trouble, hrejected⟩
      · rcases ih with hrest | ⟨trouble, front, bad, back, rfl, hfront, hrejected⟩
        · exact .inl (List.forall_mem_cons.mpr ⟨⟨address, hspells⟩, hrest⟩)
        · have hgood : Addressed (entry :: front) :=
            List.forall_mem_cons.mpr ⟨⟨address, hspells⟩, hfront⟩
          exact .inr ⟨trouble, entry :: front, bad, back, rfl, hgood, hrejected⟩
      · exact .inr ⟨trouble, [], entry, rest, rfl, fun _ h ↦ absurd h List.not_mem_nil, hrejected⟩

theorem addressed_iff : Addressed accounts ↔ ∀ trouble, ¬FirstRejected accounts trouble := by
  constructor
  · intro haddressed trouble hfirst
    obtain ⟨after, hok⟩ := exists_addAccounts haddressed World.empty
    cases hok.symm.trans (addAccounts_of_firstRejected hfirst World.empty)
  · intro h
    rcases addressed_or_firstRejected accounts with haddressed | ⟨trouble, hfirst⟩
    · exact haddressed
    · exact absurd hfirst (h trouble)

theorem exists_addAccounts_iff :
    (∃ after, addAccounts w accounts = .ok after) ↔ Addressed accounts := by
  constructor
  · rintro ⟨after, h⟩
    rw [addressed_iff]
    intro trouble hfirst
    cases h.symm.trans (addAccounts_of_firstRejected hfirst w)
  · intro h
    exact exists_addAccounts h w

theorem addAccounts_eq_error_iff :
    addAccounts w accounts = .error trouble ↔ FirstRejected accounts trouble := by
  constructor
  · intro h
    rcases addressed_or_firstRejected accounts with haddressed | ⟨other, hfirst⟩
    · obtain ⟨after, hok⟩ := exists_addAccounts haddressed w
      cases h.symm.trans hok
    · cases h.symm.trans (addAccounts_of_firstRejected hfirst w)
      exact hfirst
  · intro h
    exact addAccounts_of_firstRejected h w

/-- If all goes well, the first account is put in and the others follow. -/
theorem exists_of_addAccounts_cons {entry : String × FixtureAccount}
    {rest : List (String × FixtureAccount)} (h : addAccounts w (entry :: rest) = .ok after) :
    ∃ address, Spells entry.1 address ∧
      addAccounts (w.insert address entry.2.toAccount) rest = .ok after := by
  rcases spells_or_rejected entry.1 with ⟨address, hspells⟩ | ⟨trouble, hrejected⟩
  · rw [addAccounts_cons_of_spells hspells] at h
    exact ⟨address, hspells, h⟩
  · cases h.symm.trans (addAccounts_cons_of_rejected hrejected entry.2 rest)

/-- The last entry for an address decides, or the world as it was if there is none. -/
theorem account?_addAccounts (h : addAccounts w accounts = .ok after) (address : Address) :
    after.account? address =
      ((accounts.filter fun entry ↦ Spells entry.1 address).getLast?.map (·.2.toAccount)).or
        (w.account? address) := by
  induction accounts generalizing w with
  | nil =>
      cases h
      rfl
  | cons entry rest ih =>
      obtain ⟨found, hspells, hrest⟩ := exists_of_addAccounts_cons h
      rw [ih hrest, World.account?_insert]
      by_cases haddress : address = found
      · subst haddress
        rw [if_pos rfl, List.filter_cons_of_pos (by simpa using hspells), List.getLast?_cons]
        cases (rest.filter fun entry ↦ Spells entry.1 address).getLast? <;> rfl
      · have hother : ¬Spells entry.1 address := fun h ↦ haddress (h.unique hspells)
        rw [if_neg haddress, List.filter_cons_of_neg (by simpa using hother)]

theorem nodup_addresses_addAccounts (h : addAccounts w accounts = .ok after)
    (hw : w.addresses.Nodup) : after.addresses.Nodup := by
  induction accounts generalizing w with
  | nil =>
      cases h
      exact hw
  | cons entry rest ih =>
      obtain ⟨found, -, hrest⟩ := exists_of_addAccounts_cons h
      exact ih hrest (World.nodup_addresses_insert hw)

end

/-! ## Keys in the order of their bytes -/

/-- Of the keys that spell the address, this entry has the last. -/
structure LastFor (accounts : List (String × FixtureAccount)) (address : Address)
    (entry : String × FixtureAccount) : Prop where
  mem : entry ∈ accounts
  spells : Spells entry.1 address
  last : ∀ other ∈ accounts, Spells other.1 address →
    other = entry ∨ FileTree.nameBytes other.1 < FileTree.nameBytes entry.1

/-- Along an asymmetric relation the last element is the greatest. -/
theorem getLast?_eq_some_iff_of_pairwise {α : Type} {r : α → α → Prop} {xs : List α} {x : α}
    (hasymm : ∀ a b, r a b → ¬r b a) (h : xs.Pairwise r) :
    xs.getLast? = some x ↔ x ∈ xs ∧ ∀ y ∈ xs, y = x ∨ r y x := by
  rcases List.eq_nil_or_concat xs with rfl | ⟨front, last, rfl⟩
  · exact ⟨nofun, fun h ↦ absurd h.1 List.not_mem_nil⟩
  · rw [List.concat_eq_append] at h ⊢
    have hlast : ∀ y ∈ front ++ [last], y = last ∨ r y last := by
      intro y hy
      rcases List.mem_append.mp hy with hfront | hsingle
      · exact .inr ((List.pairwise_append.mp h).2.2 y hfront last List.mem_cons_self)
      · exact .inl (List.mem_singleton.mp hsingle)
    rw [List.getLast?_concat, Option.some.injEq]
    constructor
    · rintro rfl
      exact ⟨List.mem_concat_self, hlast⟩
    · rintro ⟨hx, hgreatest⟩
      rcases hlast x hx with heq | hlt
      · exact heq.symm
      · exact (hgreatest last List.mem_concat_self).resolve_right (hasymm x last hlt)

section

variable {accounts : List (String × FixtureAccount)}

theorem lastFor_iff (h : InByteOrder accounts) {address : Address}
    {entry : String × FixtureAccount} :
    LastFor accounts address entry ↔
      (accounts.filter fun entry ↦ Spells entry.1 address).getLast? = some entry := by
  rw [getLast?_eq_some_iff_of_pairwise (fun _ _ ↦ List.lt_asymm) (List.Pairwise.filter _ h)]
  simp only [List.mem_filter, decide_eq_true_eq, and_imp]
  exact ⟨fun h ↦ ⟨⟨h.mem, h.spells⟩, h.last⟩, fun h ↦ ⟨h.1.1, h.1.2, h.2⟩⟩

theorem firstRejected_iff (h : InByteOrder accounts) {trouble : Trouble} :
    FirstRejected accounts trouble ↔
      ∃ entry ∈ accounts,
        (∀ other ∈ accounts, FileTree.nameBytes other.1 < FileTree.nameBytes entry.1 →
          ∃ address, Spells other.1 address) ∧
        Rejected entry.1 trouble trouble.message := by
  constructor
  · rintro ⟨front, entry, back, rfl, hfront, hrejected⟩
    refine ⟨entry, by simp, ?_, hrejected⟩
    intro other hother hlt
    rcases List.mem_append.mp hother with hmem | hmem
    · exact hfront other hmem
    · -- From the entry on, no key comes before it.
      have hbehind := (List.pairwise_append.mp h).2.1
      rcases List.mem_cons.mp hmem with rfl | hback
      · exact absurd hlt (List.lt_irrefl _)
      · exact absurd hlt (List.lt_asymm ((List.pairwise_cons.mp hbehind).1 other hback))
  · rintro ⟨entry, hentry, hbefore, hrejected⟩
    obtain ⟨front, back, rfl⟩ := List.append_of_mem hentry
    refine ⟨front, entry, back, rfl, ?_, hrejected⟩
    intro other hother
    have hlt := (List.pairwise_append.mp h).2.2 other hother entry List.mem_cons_self
    exact hbefore other (List.mem_append_left _ hother) hlt

end

/-! ## The environment -/

section

variable {accounts : List (String × FixtureAccount)} {world : World}
  (h : addAccounts World.empty accounts = .ok world)
include h

theorem account?_eq_none_iff_of_addAccounts {address : Address} :
    world.account? address = none ↔ ∀ entry ∈ accounts, ¬Spells entry.1 address := by
  have hempty : World.empty.account? address = none := rfl
  rw [account?_addAccounts h, hempty, Option.or_none, Option.map_eq_none_iff,
    List.getLast?_eq_none_iff, List.filter_eq_nil_iff]
  simp only [decide_eq_true_eq]

theorem account?_eq_some_iff_of_addAccounts (horder : InByteOrder accounts) {address : Address}
    {account : Account} :
    world.account? address = some account ↔
      ∃ entry, LastFor accounts address entry ∧ entry.2.toAccount = account := by
  have hempty : World.empty.account? address = none := rfl
  rw [account?_addAccounts h, hempty, Option.or_none, Option.map_eq_some_iff]
  simp only [lastFor_iff horder]

theorem size_of_addAccounts :
    world.size = {address | ∃ entry ∈ accounts, Spells entry.1 address}.ncard := by
  have hmem : ∀ address, address ∈ world.addresses ↔
      ∃ entry ∈ accounts, Spells entry.1 address := by
    intro address
    rw [← not_iff_not, ← World.account?_eq_none_iff, account?_eq_none_iff_of_addAccounts h]
    simp only [not_exists, not_and]
  rw [World.size_eq_ncard (nodup_addresses_addAccounts h List.nodup_nil)]
  simp only [hmem]

end

variable {f : Fixture}

theorem world_of_environment {environment : Environment} (h : f.environment = .ok environment) :
    addAccounts World.empty f.entries = .ok environment.world := by
  unfold Fixture.environment Fixture.world at h
  cases hworld : addAccounts World.empty (f.state.getD []) with
  | error trouble =>
      rw [hworld] at h
      cases h
  | ok world =>
      rw [hworld] at h
      cases h
      exact hworld

theorem exists_environment_iff :
    (∃ environment, f.environment = .ok environment) ↔ Addressed f.entries := by
  rw [← exists_addAccounts_iff (w := World.empty)]
  unfold Fixture.environment Fixture.world entries
  cases addAccounts World.empty (f.state.getD []) with
  | error trouble => exact ⟨nofun, nofun⟩
  | ok world => exact ⟨fun _ ↦ ⟨world, rfl⟩, fun _ ↦ ⟨_, rfl⟩⟩

theorem environment_eq_error_iff {trouble : Trouble} :
    f.environment = .error trouble ↔ FirstRejected f.entries trouble := by
  rw [← addAccounts_eq_error_iff (w := World.empty)]
  unfold Fixture.environment Fixture.world entries
  cases addAccounts World.empty (f.state.getD []) with
  | error other =>
      constructor
      · rintro ⟨⟩
        rfl
      · rintro ⟨⟩
        rfl
  | ok world => exact ⟨nofun, nofun⟩

/-- The keys of a fixture that has been read are in order.  If they are, it has an
environment exactly if all of them spell addresses.  An address then has the account of the
last key that spells it, with nothing on it and no code where the entry is silent, and there
are as many accounts as addresses that are spelt.  Otherwise the trouble is that of the
first key that spells none. -/
theorem environment_exact (f : Fixture) :
    (∀ text, f.HeldBy text → InByteOrder f.entries) ∧
      (InByteOrder f.entries →
        ((∃ environment, f.environment = .ok environment) ↔
          ∀ entry ∈ f.entries, ∃ address, Spells entry.1 address) ∧
        (∀ environment, f.environment = .ok environment →
          (∀ address account, environment.world.account? address = some account ↔
            ∃ entry, LastFor f.entries address entry ∧
              account.balance = entry.2.balance.getD 0#256 ∧
              account.code = (entry.2.code.bind (·.bytecode)).getD []) ∧
          (∀ address, environment.world.account? address = none ↔
            ∀ entry ∈ f.entries, ¬Spells entry.1 address) ∧
          environment.world.size =
            {address | ∃ entry ∈ f.entries, Spells entry.1 address}.ncard) ∧
        ∀ trouble, f.environment = .error trouble ↔
          ∃ entry ∈ f.entries,
            (∀ other ∈ f.entries, FileTree.nameBytes other.1 < FileTree.nameBytes entry.1 →
              ∃ address, Spells other.1 address) ∧
            Rejected entry.1 trouble trouble.message) := by
  refine ⟨fun _ ↦ HeldBy.inByteOrder, ?_⟩
  intro horder
  refine ⟨exists_environment_iff, ?_, ?_⟩
  · intro environment h
    have hworld := world_of_environment h
    refine ⟨?_, fun _ ↦ account?_eq_none_iff_of_addAccounts hworld, size_of_addAccounts hworld⟩
    intro address account
    rw [account?_eq_some_iff_of_addAccounts hworld horder]
    simp only [FixtureAccount.toAccount_eq_iff]
  · intro trouble
    rw [environment_eq_error_iff, firstRejected_iff horder]

/-- A fixture of which nothing is known but accounts, given in any order. -/
def stating (accounts : List (String × FixtureAccount)) : Fixture :=
  { Fixture.blank with state := some (FixtureJson.ordered accounts) }

theorem inByteOrder_stating (accounts : List (String × FixtureAccount)) :
    InByteOrder (stating accounts).entries := inByteOrder_ordered accounts

/-- One address under two texts: with a mark and no zero in front, and in capitals. -/
def spellings : List (String × FixtureAccount) :=
  [(String.ofList (List.replicate 39 'A'), ⟨none, some ⟨none, some [0x00]⟩⟩),
    ("0x" ++ String.ofList (List.replicate 39 'a'), ⟨some 1#256, none⟩)]

def spelt : Address := ⟨0x0a :: List.replicate 19 0xaa, rfl⟩

theorem spells_spelt : ∀ entry ∈ (stating spellings).entries, Spells entry.1 spelt := by
  decide +kernel

/-- Capitals come last, so that they decide. -/
theorem lastFor_spelt :
    LastFor (stating spellings).entries spelt
      (String.ofList (List.replicate 39 'A'), ⟨none, some ⟨none, some [0x00]⟩⟩) := by
  have hmem : (String.ofList (List.replicate 39 'A'), ⟨none, some ⟨none, some [0x00]⟩⟩) ∈
      (stating spellings).entries := by decide +kernel
  refine ⟨hmem, spells_spelt _ hmem, ?_⟩
  decide +kernel

theorem setOf_spells_spellings :
    {address | ∃ entry ∈ (stating spellings).entries, Spells entry.1 address} = {spelt} := by
  ext address
  constructor
  · rintro ⟨entry, hentry, hspells⟩
    exact hspells.unique (spells_spelt entry hentry)
  · rintro rfl
    exact ⟨_, lastFor_spelt.mem, lastFor_spelt.spells⟩

/-- Two keys make one account; a key of a single byte makes trouble. -/
theorem environment_exact_spellings :
    InByteOrder (stating spellings).entries ∧
      (∃ environment, (stating spellings).environment = .ok environment ∧
        environment.world.account? spelt = some ⟨0#256, [0x00]⟩ ∧ environment.world.size = 1) ∧
      (stating [("0x00", ⟨none, none⟩)]).environment = .error (.addressLength "0x00") := by
  have horder := inByteOrder_stating spellings
  obtain ⟨hexists, haccounts, -⟩ := (environment_exact (stating spellings)).2 horder
  obtain ⟨environment, henvironment⟩ :=
    hexists.mpr fun entry hentry ↦ ⟨spelt, spells_spelt entry hentry⟩
  obtain ⟨haccount, -, hsize⟩ := haccounts environment henvironment
  refine ⟨horder, ⟨environment, henvironment, ?_, ?_⟩, ?_⟩
  · rw [haccount]
    exact ⟨_, lastFor_spelt, rfl, rfl⟩
  · rw [hsize, setOf_spells_spellings, Set.ncard_singleton]
  · have hdecoded : Hex.decodePadded "0x00" = .ok [0x00] := by decide +kernel
    have hrejected : Rejected "0x00" (.addressLength "0x00") _ :=
      .wrongLength hdecoded (by decide)
    rw [((environment_exact _).2 (inByteOrder_stating _)).2.2]
    refine ⟨("0x00", ⟨none, none⟩), List.mem_singleton_self _, ?_, hrejected⟩
    intro other hother hlt
    rw [List.mem_singleton.mp hother] at hlt
    exact absurd hlt (List.lt_irrefl _)

end Fixture

end WordMachine
