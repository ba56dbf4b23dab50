import WordMachine.Command.Session
import WordMachine.Proofs.ByteOrder
import WordMachine.Proofs.ReportContents

/-!
# Runs of directories

The fixtures below a directory are run file by file, and what comes of it is what
comes of one list with all of them.  Which files there are, and in which order, is
said by a relation that follows a walker's steps: the entries of a directory are
gone through by the bytes of their names, and a directory among them is walked in
its place.  The tally is collected by sorting after the descent instead of before
it, which comes to the same.
-/

namespace WordMachine

namespace FileTree

/-! ## Walks -/

def HasJsonExtension (name : String) : Prop := ∃ stem, stem ≠ "" ∧ name = stem ++ ".json"

theorem isJsonName_iff {name : String} : isJsonName name = true ↔ HasJsonExtension name := by
  unfold isJsonName HasJsonExtension
  simp only [Bool.and_eq_true, List.isSuffixOf_iff_suffix, decide_eq_true_eq]
  constructor
  · rintro ⟨⟨stem, hstem⟩, hlength⟩
    refine ⟨String.ofList stem, ?_, ?_⟩
    · rintro hempty
      have hnil : stem = [] := by simpa using congrArg String.toList hempty
      rw [← hstem, hnil] at hlength
      exact absurd hlength (by decide)
    · apply String.toList_inj.mp
      rw [String.toList_append, String.toList_ofList, hstem]
  · rintro ⟨stem, hne, rfl⟩
    rw [String.toList_append]
    refine ⟨List.suffix_append _ _, ?_⟩
    have hpositive : 0 < stem.toList.length := by
      apply List.length_pos_iff.mpr
      intro hnil
      exact hne (String.toList_inj.mp hnil)
    have hfive : ".json".toList.length = 5 := by decide
    rw [List.length_append]
    omega

/-- In no directory of the tree do two entries have the same name. -/
inductive Distinct : FileTree → Prop where
  | file (content : ByteArray) : Distinct (file content)
  | directory {entries : List (String × FileTree)} (names : (entries.map (·.1)).Nodup)
      (nodes : ∀ entry ∈ entries, Distinct entry.2) : Distinct (directory entries)

/-- The entries by the bytes of their names. -/
def InOrder (entries ordered : List (String × FileTree)) : Prop :=
  ordered.Perm entries ∧ ordered.Pairwise fun a b ↦ nameBytes a.1 < nameBytes b.1

/-- The contents that are met on the way through entries that stand in order. -/
inductive Walk : List (String × FileTree) → List ByteArray → Prop where
  | done : Walk [] []
  | read {name : String} {content : ByteArray} {rest : List (String × FileTree)}
      {files : List ByteArray} (hname : HasJsonExtension name) (hrest : Walk rest files) :
      Walk ((name, file content) :: rest) (content :: files)
  | pass {name : String} {content : ByteArray} {rest : List (String × FileTree)}
      {files : List ByteArray} (hname : ¬HasJsonExtension name) (hrest : Walk rest files) :
      Walk ((name, file content) :: rest) files
  | enter {name : String} {entries ordered rest : List (String × FileTree)}
      {inner files : List ByteArray} (horder : InOrder entries ordered)
      (hinner : Walk ordered inner) (hrest : Walk rest files) :
      Walk ((name, directory entries) :: rest) (inner ++ files)

def WalkBelow (entries : List (String × FileTree)) (files : List ByteArray) : Prop :=
  ∃ ordered, InOrder entries ordered ∧ Walk ordered files

theorem InOrder.unique {entries xs ys : List (String × FileTree)} (hxs : InOrder entries xs)
    (hys : InOrder entries ys) : xs = ys := by
  refine List.Perm.eq_of_pairwise ?_ hxs.2 hys.2 (hxs.1.trans hys.1.symm)
  intro a b _ _ hab hba
  exact absurd hba (List.lt_asymm hab)

theorem Walk.unique {ordered : List (String × FileTree)} {files others : List ByteArray}
    (h : Walk ordered files) (h' : Walk ordered others) : files = others := by
  induction h generalizing others with
  | done =>
      cases h'
      rfl
  | read hname hrest ih =>
      cases h' with
      | read _ hrest' => rw [ih hrest']
      | pass hname' _ => exact absurd hname hname'
  | pass hname hrest ih =>
      cases h' with
      | read hname' _ => exact absurd hname' hname
      | pass _ hrest' => exact ih hrest'
  | enter horder hinner hrest ihinner ihrest =>
      cases h' with
      | enter horder' hinner' hrest' =>
          cases horder.unique horder'
          rw [ihinner hinner', ihrest hrest']

theorem WalkBelow.unique {entries : List (String × FileTree)} {files others : List ByteArray}
    (h : WalkBelow entries files) (h' : WalkBelow entries others) : files = others := by
  obtain ⟨ordered, horder, hwalk⟩ := h
  obtain ⟨ordered', horder', hwalk'⟩ := h'
  cases horder.unique horder'
  exact hwalk.unique hwalk'

/-! ## The files that are found -/

/-- What one entry of the directory at `path` contributes. -/
def filesOf (path : String) : String × FileTree → List (String × ByteArray)
  | (name, file content) => if isJsonName name then [(join path name, content)] else []
  | (name, directory entries) => jsonFiles (join path name) (.directory entries)

def byName (a b : String × FileTree) : Bool := a.1 ≤ b.1

theorem entryFiles_eq_map (path : String) (entries : List (String × FileTree)) :
    entryFiles path entries = entries.map fun entry ↦ (entry.1, filesOf path entry) := by
  induction entries with
  | nil => rw [entryFiles, List.map_nil]
  | cons entry rest ih =>
      obtain ⟨name, node⟩ := entry
      cases node with
      | file content => rw [entryFiles, ih, List.map_cons, filesOf]
      | directory entries => rw [entryFiles, ih, List.map_cons, filesOf]

/-- Sorting what the entries contribute, or the entries themselves. -/
theorem jsonFiles_directory (path : String) (entries : List (String × FileTree)) :
    jsonFiles path (.directory entries) = (entries.mergeSort byName).flatMap (filesOf path) := by
  have hsort : (entries.mergeSort byName).map (fun entry ↦ (entry.1, filesOf path entry)) =
      (entryFiles path entries).mergeSort fun a b ↦ a.1 ≤ b.1 := by
    rw [entryFiles_eq_map]
    exact List.map_mergeSort fun _ _ _ _ ↦ rfl
  rw [jsonFiles, ← hsort, List.flatMap_map]

theorem inOrder_mergeSort {entries : List (String × FileTree)}
    (hnames : (entries.map (·.1)).Nodup) : InOrder entries (entries.mergeSort byName) := by
  have hperm := List.mergeSort_perm entries byName
  have hsorted : (entries.mergeSort byName).Pairwise fun a b ↦ byName a b = true := by
    apply List.pairwise_mergeSort
    · intro a b c hab hbc
      exact decide_eq_true (String.le_trans (of_decide_eq_true hab) (of_decide_eq_true hbc))
    · intro a b
      simpa [byName] using String.le_total a.1 b.1
  have hdistinct : (entries.mergeSort byName).Pairwise fun a b ↦ a.1 ≠ b.1 :=
    List.pairwise_map.mp ((hperm.map Prod.fst).nodup_iff.mpr hnames)
  refine ⟨hperm, (hsorted.and hdistinct).imp ?_⟩
  rintro a b ⟨hle, hne⟩
  rw [nameBytes_lt_iff, ← String.not_le]
  intro hge
  exact hne (String.le_antisymm (of_decide_eq_true hle) hge)

theorem walk_filesOf {path : String} {ordered : List (String × FileTree)}
    (h : ∀ entry ∈ ordered, ∀ entries, entry.2 = .directory entries →
      WalkBelow entries ((jsonFiles (join path entry.1) (.directory entries)).map (·.2))) :
    Walk ordered ((ordered.flatMap (filesOf path)).map (·.2)) := by
  induction ordered with
  | nil => exact .done
  | cons entry rest ih =>
      have hrest := ih fun other hother ↦ h other (List.mem_cons_of_mem entry hother)
      rw [List.flatMap_cons, List.map_append]
      obtain ⟨name, node⟩ := entry
      cases node with
      | file content =>
          by_cases hname : isJsonName name = true
          · rw [filesOf, if_pos hname]
            exact .read (isJsonName_iff.mp hname) hrest
          · rw [filesOf, if_neg hname]
            exact .pass (fun hjson ↦ hname (isJsonName_iff.mpr hjson)) hrest
      | directory entries =>
          obtain ⟨ordered, horder, hinner⟩ := h _ List.mem_cons_self entries rfl
          exact .enter horder hinner hrest

theorem walkBelow_jsonFiles {tree : FileTree} (h : Distinct tree) (path : String)
    {entries : List (String × FileTree)} (htree : tree = .directory entries) :
    WalkBelow entries ((jsonFiles path (.directory entries)).map (·.2)) := by
  induction h generalizing path entries with
  | file content => cases htree
  | directory names nodes ih =>
      cases htree
      have horder := inOrder_mergeSort names
      refine ⟨_, horder, ?_⟩
      rw [jsonFiles_directory]
      apply walk_filesOf
      intro entry hentry inner hnode
      exact ih entry (horder.1.mem_iff.mp hentry) _ hnode

end FileTree

/-! ## Tallies -/

namespace Report

theorem ofFixtures_append (limits : Limits) (filter : Option String) (xs ys : List Fixture) :
    ofFixtures limits filter (xs ++ ys) =
      append (ofFixtures limits filter xs) (ofFixtures limits filter ys) := by
  simp only [ofFixtures_eq_buckets, buckets_append]

/-- The counts of one report. -/
def tally (r : Report) : Tally where
  total := r.total
  passed := r.passed.length
  failed := r.failed.length
  skipped := r.skipped.length
  failures := r.failed

end Report

namespace Tally

theorem add_append (t : Tally) (r s : Report) : t.add (r.append s) = (t.add r).add s := by
  simp only [add, Report.append, Report.total, List.length_append, List.append_assoc, mk.injEq,
    and_true]
  omega

theorem add_ofFixtures_nil (t : Tally) (limits : Limits) (filter : Option String) :
    t.add (Report.ofFixtures limits filter []) = t := by
  simp [add, Report.ofFixtures, Report.empty, Report.total]

theorem empty_add (r : Report) : empty.add r = r.tally := by
  simp [add, empty, Report.tally]

end Tally

namespace Suite

variable {limits : Limits} {filter : Option String}

theorem runFile_of_ok {content : ByteArray} {fixtures : List Fixture}
    (h : readFixtures content = .ok fixtures) :
    runFile limits filter content = .ok (Report.ofFixtures limits filter fixtures) := by
  rw [runFile, h]
  rfl

theorem runFile_of_error {content : ByteArray} {trouble : Trouble}
    (h : readFixtures content = .error trouble) :
    runFile limits filter content = .error trouble := by
  rw [runFile, h]
  rfl

/-- Files that can be read are as good as one list with all their fixtures. -/
theorem outcome_runFiles_append {front : List (String × ByteArray)} {lists : List (List Fixture)}
    (h : front.map (fun entry ↦ readFixtures entry.2) = lists.map .ok) (tally : Tally)
    (back : List (String × ByteArray)) :
    (runFiles limits filter tally (front ++ back)).outcome =
      (runFiles limits filter (tally.add (Report.ofFixtures limits filter lists.flatten))
        back).outcome := by
  induction front generalizing lists tally with
  | nil =>
      cases lists with
      | nil => rw [List.flatten_nil, Tally.add_ofFixtures_nil, List.nil_append]
      | cons fixtures lists => cases h
  | cons entry front ih =>
      cases lists with
      | nil => cases h
      | cons fixtures lists =>
          obtain ⟨hentry, hfront⟩ := List.cons.inj h
          rw [List.cons_append, runFiles, runFile_of_ok hentry, List.flatten_cons,
            Report.ofFixtures_append, Tally.add_append]
          exact ih hfront _

theorem outcome_runFiles_of_ok {files : List (String × ByteArray)} {lists : List (List Fixture)}
    (h : files.map (fun entry ↦ readFixtures entry.2) = lists.map .ok) (tally : Tally) :
    (runFiles limits filter tally files).outcome =
      .ok (tally.add (Report.ofFixtures limits filter lists.flatten)) := by
  rw [← List.append_nil files, outcome_runFiles_append h, runFiles]

theorem outcome_runFiles_of_error {entries : List (String × ByteArray)}
    {front back : List ByteArray} {content : ByteArray} {lists : List (List Fixture)}
    {trouble : Trouble} (hsplit : entries.map (·.2) = front ++ content :: back)
    (hfront : front.map readFixtures = lists.map .ok)
    (hcontent : readFixtures content = .error trouble) (tally : Tally) :
    (runFiles limits filter tally entries).outcome = .error trouble := by
  obtain ⟨before, after, rfl, rfl, hafter⟩ := List.map_eq_append_iff.mp hsplit
  obtain ⟨entry, rest, rfl, rfl, rfl⟩ := List.map_eq_cons_iff.mp hafter
  rw [List.map_map] at hfront
  rw [outcome_runFiles_append hfront, runFiles, runFile_of_error hcontent]

theorem outcome_runPath_directory {root : FileTree} {path : String}
    {entries : List (String × FileTree)} (hfind : root.find path = .ok (.directory entries)) :
    (runPath limits filter root path).outcome =
      (runFiles limits filter Tally.empty
        (FileTree.jsonFiles path (.directory entries))).outcome := by
  rw [runPath, hfind]

end Suite

namespace Session

/-- The command succeeds when there is a tally and nothing failed in it. -/
theorem exit_fixtures_eq_zero_iff (s : Session) (json : Bool) (path : String)
    (filter : Option String) (verbose : Bool) :
    (s.obey json (.fixtures path filter verbose)).1.exit = 0 ↔
      ∃ tally, (Suite.runPath s.settings.limits filter s.files path).outcome = .ok tally ∧
        tally.failed = 0 := by
  rw [obey, runFixtures]
  cases hfind : s.files.find path with
  | error problem =>
      have houtcome : (Suite.runPath s.settings.limits filter s.files path).outcome =
          .error (.file problem) := by
        rw [Suite.runPath, hfind]
      simp [houtcome, Response.exit_failure_ne_zero]
  | ok node =>
      cases houtcome : (Suite.runPath s.settings.limits filter s.files path).outcome with
      | error trouble => simp [houtcome, Response.exit_failure_ne_zero]
      | ok tally => simp [houtcome, Tally.allPassed]

end Session

namespace Suite

open FileTree

/-- There is one walk through a directory.  If its files can be read, the run comes to the
same as that of one list with all their fixtures, and the command succeeds when none of
these failed; the first file that cannot be read is all that comes of the others.  The
tally is one of runs that end: with an eligible fixture that runs for ever there is none. -/
theorem runPath_walks {root : FileTree} {path : String} {entries : List (String × FileTree)}
    (hfind : root.find path = .ok (.directory entries))
    (hdistinct : Distinct (.directory entries)) (limits : Limits) (filter : Option String) :
    ∃ files, WalkBelow entries files ∧ (∀ others, WalkBelow entries others → others = files) ∧
      (∀ lists : List (List Fixture), files.map readFixtures = lists.map .ok →
        ∃ tally, (runPath limits filter root path).outcome = .ok tally ∧
          tally = (Report.ofFixtures limits filter lists.flatten).tally ∧
          tally.total = tally.passed + tally.failed ∧ tally.failures.length = tally.failed ∧
          ∀ (s : Session) (json verbose : Bool), s.files = root → s.settings.limits = limits →
            ((s.obey json (.fixtures path filter verbose)).1.exit = 0 ↔ tally.failures = [])) ∧
      ∀ (front back : List ByteArray) (content : ByteArray) (lists : List (List Fixture))
          (trouble : Trouble), files = front ++ content :: back →
        front.map readFixtures = lists.map .ok → readFixtures content = .error trouble →
        (runPath limits filter root path).outcome = .error trouble ∧
          ∀ (s : Session) (json verbose : Bool), s.files = root → s.settings.limits = limits →
            (s.obey json (.fixtures path filter verbose)).1.exit ≠ 0 := by
  have hwalk := walkBelow_jsonFiles hdistinct path rfl
  refine ⟨_, hwalk, fun others hothers ↦ hothers.unique hwalk, ?_, ?_⟩
  · intro lists hlists
    rw [List.map_map] at hlists
    have houtcome : (runPath limits filter root path).outcome =
        .ok (Report.ofFixtures limits filter lists.flatten).tally := by
      rw [outcome_runPath_directory hfind, outcome_runFiles_of_ok hlists, Tally.empty_add]
    refine ⟨_, houtcome, rfl, rfl, rfl, ?_⟩
    rintro s json verbose rfl rfl
    rw [Session.exit_fixtures_eq_zero_iff, houtcome]
    simp [Report.tally]
  · intro front back content lists trouble hsplit hfront hcontent
    have houtcome : (runPath limits filter root path).outcome = .error trouble := by
      rw [outcome_runPath_directory hfind]
      exact outcome_runFiles_of_error hsplit hfront hcontent _
    refine ⟨houtcome, ?_⟩
    rintro s json verbose rfl rfl
    rw [Ne, Session.exit_fixtures_eq_zero_iff, houtcome]
    simp

/-- The text of a file with one fixture, which is to succeed. -/
def oneFixture (name code : String) : ByteArray :=
  ("[\x7b\"name\": \"" ++ name ++ "\", \"code\": \x7b\"bin\": \"" ++ code ++
    "\"\x7d, \"expect\": \x7b\"success\": true\x7d\x7d]").toUTF8

/-- Beside a file stands a directory whose name is the beginning of the file's. -/
def popBesideStop : List (String × FileTree) :=
  [("a.json", .file (oneFixture "stop" "00")),
    ("a", .directory [("b.json", .file (oneFixture "pop" "50")), (".json", .file ⟨#[255]⟩)])]

theorem distinct_popBesideStop : Distinct (.directory popBesideStop) := by
  refine .directory (by decide) ?_
  intro entry hentry
  simp only [popBesideStop, List.mem_cons, List.not_mem_nil, or_false] at hentry
  rcases hentry with rfl | rfl
  · exact .file _
  · refine .directory (by decide) ?_
    intro inner hinner
    simp only [List.mem_cons, List.not_mem_nil, or_false] at hinner
    rcases hinner with rfl | rfl
    · exact .file _
    · exact .file _

theorem walkBelow_popBesideStop :
    WalkBelow popBesideStop [oneFixture "pop" "50", oneFixture "stop" "00"] := by
  have hinner : Walk [(".json", .file ⟨#[255]⟩), ("b.json", .file (oneFixture "pop" "50"))]
      [oneFixture "pop" "50"] := by
    refine .pass ?_ (.read (isJsonName_iff.mp (by decide)) .done)
    rw [← isJsonName_iff]
    decide
  have hlast : Walk [("a.json", .file (oneFixture "stop" "00"))] [oneFixture "stop" "00"] :=
    .read (isJsonName_iff.mp (by decide)) .done
  exact ⟨_, ⟨.swap _ _ _, by decide⟩, .enter ⟨.swap _ _ _, by decide⟩ hinner hlast⟩

theorem runPath_walks_popBesideStop :
    (directory popBesideStop).find "." = .ok (.directory popBesideStop) ∧
      Distinct (.directory popBesideStop) ∧
      (runPath ⟨some 10, 64⟩ none (.directory popBesideStop) ".").outcome = .ok
        ⟨2, 1, 1, 0, [⟨"pop", "Assertion failed: success mismatch: expected true, got false " ++
          "(failed: stack underflow)"⟩]⟩ := by
  have hfind : (directory popBesideStop).find "." = .ok (.directory popBesideStop) := rfl
  refine ⟨hfind, distinct_popBesideStop, ?_⟩
  obtain ⟨files, -, hunique, hok, -⟩ :=
    runPath_walks hfind distinct_popBesideStop ⟨some 10, 64⟩ none
  cases hunique _ walkBelow_popBesideStop
  obtain ⟨tally, houtcome, htally, -⟩ := hok
    [[{ Fixture.blank with
        name := "pop", code := ⟨none, some [0x50]⟩, expectation := ⟨none, some true, none⟩ }],
      [{ Fixture.blank with
        name := "stop", code := ⟨none, some [0x00]⟩, expectation := ⟨none, some true, none⟩ }]] rfl
  rw [houtcome, htally]
  apply congrArg Except.ok
  decide +kernel

end Suite

end WordMachine
