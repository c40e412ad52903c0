import Mathlib.Algebra.Ring.Nat
import Mathlib.Data.List.Induction
import Mathlib.Data.List.Perm.Basic
import Mathlib.Logic.Basic
import TextureCache.DumpCheck
import TextureCache.FileSystem.Edit

/-! The check looks at every file of every directory. The walk counts each file by its verdict and
gives up at the first directory that cannot be listed. Its counters are the numbers of the verdicts
among all entries so far, whence they depend on which files the directories have and not on their
order. -/
namespace TextureCache.DumpCheck

private theorem Entry.verdict_eq_skipped_iff {entry : Entry} :
    entry.verdict = .skipped ↔ fileName? entry.name = none := by
  unfold verdict
  cases fileName? entry.name with
  | none => simp
  | some name =>
    dsimp only
    cases name.check entry.contents <;> simp

namespace Summary

def ofEntries (entries : List Entry) : Summary where
  valid := entries.countP (·.verdict = .valid)
  invalid := entries.countP fun entry => entry.verdict matches .invalid _
  skipped := entries.countP (·.verdict = .skipped)

def total (summary : Summary) : Nat := summary.valid + summary.invalid + summary.skipped

private theorem add_ofEntries (entries : List Entry) (entry : Entry) :
    (ofEntries entries).add entry = ofEntries (entries ++ [entry]) := by
  unfold add ofEntries
  cases verdict : entry.verdict <;> simp [verdict]

private theorem foldl_add (counted entries : List Entry) :
    entries.foldl add (ofEntries counted) = ofEntries (counted ++ entries) := by
  induction entries generalizing counted with
  | nil => rw [List.append_nil]; rfl
  | cons entry rest ih =>
    rw [List.foldl_cons, add_ofEntries, ih, List.append_assoc, List.singleton_append]

private theorem total_add (summary : Summary) (entry : Entry) :
    (summary.add entry).total = summary.total + 1 := by
  unfold add total
  cases entry.verdict <;> dsimp only <;> omega

private theorem total_ofEntries (entries : List Entry) :
    (ofEntries entries).total = entries.length := by
  induction entries using List.reverseRecOn with
  | nil => rfl
  | append_singleton entries entry ih =>
    rw [← add_ofEntries, total_add, ih, List.length_append, List.length_singleton]

private theorem ofEntries_perm {entries others : List Entry} (same : entries.Perm others) :
    ofEntries entries = ofEntries others := by
  unfold ofEntries
  congr 1
  · exact same.countP_eq _
  · exact same.countP_eq _
  · exact same.countP_eq _

private theorem skipped_ofEntries (entries : List Entry) :
    (ofEntries entries).skipped = entries.countP fun entry => (fileName? entry.name).isNone := by
  refine List.countP_congr fun entry _ => ?_
  rw [decide_eq_true_iff, Entry.verdict_eq_skipped_iff, Option.isNone_iff_eq_none]

private theorem invalid_ofEntries_eq_zero_iff {entries : List Entry} :
    (ofEntries entries).invalid = 0 ↔ ∀ entry ∈ entries, ∀ name,
      fileName? entry.name = some name → name.check entry.contents = none := by
  refine List.countP_eq_zero.trans (forall₂_congr fun entry _ => ?_)
  unfold Entry.verdict
  cases fileName? entry.name with
  | none => simp
  | some name =>
    simp only [Option.some.injEq, forall_eq']
    cases name.check entry.contents <;> simp

end Summary

/-! ## The walk -/

variable {listing : Listing} {listings : List Listing}

/-- The invariant of the walk: the counters are those of the entries that lie behind. -/
private theorem scan_ofEntries (listed : ∀ listing ∈ listings, listing.failure = none)
    (counted : List Entry) :
    scan (.ofEntries counted) listings = ((listings.flatMap (·.entries)).flatMap Entry.lines,
      .ok (.ofEntries (counted ++ listings.flatMap (·.entries)))) := by
  induction listings generalizing counted with
  | nil => rw [List.flatMap_nil, List.append_nil]; rfl
  | cons listing rest ih =>
    rw [scan, listed listing List.mem_cons_self, Summary.foldl_add]
    dsimp only
    rw [ih fun other member => listed other (List.mem_cons_of_mem _ member), List.flatMap_cons,
      List.flatMap_append, List.append_assoc]

theorem scan_of_listed (listed : ∀ listing ∈ listings, listing.failure = none) :
    scan .zero listings = ((listings.flatMap (·.entries)).flatMap Entry.lines,
      .ok (.ofEntries (listings.flatMap (·.entries)))) :=
  scan_ofEntries listed []

private theorem exists_scan_eq_error
    (failed : ¬ ∀ listing ∈ listings, listing.failure = none) (summary : Summary) :
    ∃ lines cause, scan summary listings = (lines, .error cause) := by
  induction listings generalizing summary with
  | nil => exact absurd (fun _ member => nomatch member) failed
  | cons first rest ih =>
    rw [scan]
    cases own : first.failure with
    | some cause => exact ⟨_, _, rfl⟩
    | none =>
      have later : ¬ ∀ listing ∈ rest, listing.failure = none := fun listed =>
        failed (List.forall_mem_cons.mpr ⟨own, listed⟩)
      obtain ⟨lines, cause, stopped⟩ := ih later (first.entries.foldl Summary.add summary)
      dsimp only
      rw [stopped]
      exact ⟨_, cause, rfl⟩

/-- A report on directories that can all be listed ends with the counts of their files. -/
theorem report_of_listed (given : listings ≠ [])
    (listed : ∀ listing ∈ listings, listing.failure = none) :
    let entries := listings.flatMap (·.entries)
    let summary := Summary.ofEntries entries
    report listings = ⟨if summary.invalid = 0 then 0 else 1,
      entries.flatMap Entry.lines ++ [summary.line]⟩ := by
  intro entries summary
  rw [report, if_neg (by simpa using given), scan_of_listed listed]

private theorem code_of_not_listed
    (failed : ¬ (listings ≠ [] ∧ ∀ listing ∈ listings, listing.failure = none)) :
    (report listings).code = 2 := by
  by_cases given : listings = []
  · rw [given]
    rfl
  · obtain ⟨_, _, stopped⟩ := exists_scan_eq_error (fun listed => failed ⟨given, listed⟩) .zero
    rw [report, if_neg (by simpa using given), stopped]

private theorem code_ne_two_iff : (report listings).code ≠ 2 ↔
    listings ≠ [] ∧ ∀ listing ∈ listings, listing.failure = none := by
  refine ⟨not_imp_comm.mp code_of_not_listed, fun ⟨given, listed⟩ => ?_⟩
  rw [report_of_listed given listed]
  dsimp only
  split <;> decide

private theorem report_of_code_ne_two (finished : (report listings).code ≠ 2) :
    let summary := Summary.ofEntries (listings.flatMap (·.entries))
    report listings = ⟨if summary.invalid = 0 then 0 else 1,
      (listings.flatMap (·.entries)).flatMap Entry.lines ++ [summary.line]⟩ :=
  have ⟨given, listed⟩ := code_ne_two_iff.mp finished
  report_of_listed given listed

/-! ## What a view shows -/

namespace DirectoryView

variable (view : DirectoryView)

def fileNames (directory : Path) : List OsText :=
  (view.list directory).1.filter (view.isFile directory)

/-- A directory cannot be listed to its end. -/
def Unlisted (directory : Path) : Prop := ∃ fault, (view.list directory).2 = some fault

/-- A file has a name of the cache and is not what the name promises. -/
def Fails (directory : Path) (name : OsText) : Prop :=
  ∃ own, fileName? name = some own ∧
    own.check ((view.read directory name).mapError FileFault.message) ≠ none

variable {view} {other : DirectoryView} {directory : Path} {directories : List Path}
variable {program : String} {arguments : List String}

private theorem failure_listing_ne_none_iff :
    (view.listing directory).failure ≠ none ↔ view.Unlisted directory := by
  unfold listing Unlisted
  cases (view.list directory).2 <;> simp

private theorem forall_failure_iff :
    (∀ listing ∈ directories.map view.listing, listing.failure = none) ↔
      ∀ directory ∈ directories, ¬ view.Unlisted directory := by
  simp only [List.forall_mem_map, ← failure_listing_ne_none_iff, not_not]

private theorem entries_listing (directory : Path) : (view.listing directory).entries =
    (view.fileNames directory).map fun name => ⟨(directory.join name.shown).text, name,
      (view.read directory name).mapError FileFault.message⟩ := by
  unfold listing fileNames
  rw [← List.filterMap_eq_map, List.filterMap_filter]
  rfl

private theorem entries_listings (view : DirectoryView) (directories : List Path) :
    (directories.map view.listing).flatMap (·.entries) =
      directories.flatMap fun directory => (view.listing directory).entries :=
  List.flatMap_map ..

/-- All regular files are what their names promise if none fails. -/
private theorem invalid_eq_zero_iff :
    (Summary.ofEntries ((directories.map view.listing).flatMap (·.entries))).invalid = 0 ↔
      ∀ directory ∈ directories, ∀ name ∈ view.fileNames directory,
        ¬ view.Fails directory name := by
  rw [Summary.invalid_ofEntries_eq_zero_iff, entries_listings]
  simp only [List.mem_flatMap, entries_listing, List.mem_map, Fails]
  constructor
  · rintro passes directory member name inside ⟨own, named, fails⟩
    exact fails (passes _ ⟨directory, member, name, inside, rfl⟩ own named)
  · rintro passes _ ⟨directory, member, name, inside, rfl⟩ own named
    by_contra fails
    exact passes directory member name inside ⟨own, named, fails⟩

private theorem code_listings_ne_two_iff :
    (report (directories.map view.listing)).code ≠ 2 ↔
      directories ≠ [] ∧ ∀ directory ∈ directories, ¬ view.Unlisted directory := by
  rw [code_ne_two_iff, forall_failure_iff, ne_eq, List.map_eq_nil_iff]

private theorem code_listings_eq_zero_iff
    (finished : (report (directories.map view.listing)).code ≠ 2) :
    (report (directories.map view.listing)).code = 0 ↔ ∀ directory ∈ directories,
      ∀ name ∈ view.fileNames directory, ¬ view.Fails directory name := by
  rw [← invalid_eq_zero_iff, report_of_code_ne_two finished]
  simp

private theorem code_listings_eq_one_iff
    (finished : (report (directories.map view.listing)).code ≠ 2) :
    (report (directories.map view.listing)).code = 1 ↔ ∃ directory ∈ directories,
      ∃ name ∈ view.fileNames directory, view.Fails directory name := by
  have failing : (∃ directory ∈ directories, ∃ name ∈ view.fileNames directory,
      view.Fails directory name) ↔
        ¬ (Summary.ofEntries
          ((directories.map view.listing).flatMap (·.entries))).invalid = 0 := by
    rw [invalid_eq_zero_iff]
    simp only [not_forall, not_not, exists_prop]
  rw [failing, report_of_code_ne_two finished]
  simp

/-! ## The order of files -/

/-- Two views of the same files, in which names may come in another order. -/
structure Reorders (view other : DirectoryView) : Prop where
  isFile : other.isFile = view.isFile
  read : other.read = view.read
  unlisted : ∀ directory, other.Unlisted directory ↔ view.Unlisted directory
  names : ∀ directory, ¬ view.Unlisted directory →
    (view.list directory).1.Perm (other.list directory).1

private theorem Reorders.entries (reorders : view.Reorders other)
    (listed : ¬ view.Unlisted directory) :
    (view.listing directory).entries.Perm (other.listing directory).entries := by
  have same : other.file? directory = view.file? directory := by
    funext name
    unfold file?
    rw [reorders.isFile, reorders.read]
  unfold listing
  rw [same]
  exact (reorders.names directory listed).filterMap _

private theorem Reorders.summary (reorders : view.Reorders other)
    (listed : ∀ directory ∈ directories, ¬ view.Unlisted directory) :
    Summary.ofEntries ((directories.map other.listing).flatMap (·.entries)) =
      Summary.ofEntries ((directories.map view.listing).flatMap (·.entries)) := by
  rw [entries_listings, entries_listings]
  exact Summary.ofEntries_perm (List.Perm.flatMap_left _ fun directory member =>
    (reorders.entries (listed directory member)).symm)

private theorem Reorders.code (reorders : view.Reorders other) (directories : List Path) :
    (report (directories.map other.listing)).code =
      (report (directories.map view.listing)).code := by
  have same : (report (directories.map other.listing)).code ≠ 2 ↔
      (report (directories.map view.listing)).code ≠ 2 := by
    simp only [code_listings_ne_two_iff, reorders.unlisted]
  by_cases failed : (report (directories.map view.listing)).code = 2
  · rw [failed, not_not.mp (mt same.mp (not_not.mpr failed))]
  · rw [report_of_code_ne_two failed, report_of_code_ne_two (same.mpr failed),
      reorders.summary (code_listings_ne_two_iff.mp failed).2]

/-- Of two views of the same files, either both come to their ends or none does. -/
private theorem Reorders.scan (reorders : view.Reorders other) (directories : List Path) :
    (scan .zero (directories.map other.listing)).2.toOption =
      (scan .zero (directories.map view.listing)).2.toOption := by
  have alike : (∀ listing ∈ directories.map other.listing, listing.failure = none) ↔
      ∀ listing ∈ directories.map view.listing, listing.failure = none := by
    rw [forall_failure_iff, forall_failure_iff]
    exact forall₂_congr fun directory _ => not_congr (reorders.unlisted directory)
  by_cases listed : ∀ listing ∈ directories.map view.listing, listing.failure = none
  · rw [scan_of_listed listed, scan_of_listed (alike.mpr listed),
      reorders.summary (forall_failure_iff.mp listed)]
  · obtain ⟨_, _, stopped⟩ := exists_scan_eq_error listed .zero
    obtain ⟨_, _, stopped'⟩ := exists_scan_eq_error (mt alike.mp listed) .zero
    rw [stopped, stopped']
    rfl

/-! ## The counts -/

/-- The regular files of all directories, counted one directory after another. -/
private theorem length_entries (view : DirectoryView) (directories : List Path) :
    ((directories.map view.listing).flatMap (·.entries)).length =
      (directories.map fun directory => (view.fileNames directory).length).sum := by
  rw [entries_listings]
  simp only [List.length_flatMap, entries_listing, List.length_map]

private theorem countP_entries (view : DirectoryView) (directories : List Path)
    (foreign : OsText → Bool) :
    ((directories.map view.listing).flatMap (·.entries)).countP
        (fun entry => foreign entry.name) =
      (directories.map fun directory => (view.fileNames directory).countP foreign).sum := by
  rw [entries_listings, List.countP_flatMap]
  congr 1
  refine List.map_congr_left fun directory _ => ?_
  rw [Function.comp_apply, entries_listing, List.countP_map]
  rfl

/-! ## The command line -/

private theorem directories?_unicode (program : String) (arguments : List String) :
    directories? ((program :: arguments).map .unicode) = some (arguments.map Path.ofText) := by
  have texts (texts : List String) :
      (texts.map OsText.unicode).mapM OsText.unicode? = some texts := by
    induction texts with
    | nil => rfl
    | cons text rest ih => rw [List.map_cons, List.mapM_cons, ih]; rfl
  rw [directories?, texts]
  rfl

theorem run_of_raw {command : List OsText} {text : OsText} (member : text ∈ command)
    (foreign : text.unicode? = none) : view.run command = broken := by
  have texts : command.mapM OsText.unicode? = none := by
    induction command with
    | nil => cases member
    | cons first rest ih =>
      rw [List.mapM_cons]
      rcases List.mem_cons.mp member with rfl | later
      · rw [foreign]; rfl
      · rw [ih later]
        cases first.unicode? <;> rfl
  rw [run, directories?, texts]
  rfl

private theorem run_unicode (view : DirectoryView) (program : String) (arguments : List String) :
    view.run ((program :: arguments).map .unicode) =
      report ((arguments.map Path.ofText).map view.listing) := by
  rw [run, directories?_unicode]

/-- The exit code of a check is 2 exactly if it was given no directory or one that cannot be listed.
Otherwise it is 1 exactly if some name in a directory leads to a regular file, is one of the cache
and does not promise what the file is, and 0 exactly if there is none. Then the check has counted
every such file once for each time that its directory was given, and passed over those of which the
name is none of the cache. No code and no count depends on the order of the names. -/
theorem report_scan (view : DirectoryView) (program : String) (arguments : List String) :
    let command := (program :: arguments).map OsText.unicode
    let directories := arguments.map Path.ofText
    let told := view.run command
    (told.code = 2 ↔ arguments = [] ∨ ∃ directory ∈ directories, view.Unlisted directory) ∧
    (told.code = 1 ↔ told.code ≠ 2 ∧ ∃ directory ∈ directories,
      ∃ name ∈ view.fileNames directory, view.Fails directory name) ∧
    (told.code = 0 ↔ told.code ≠ 2 ∧ ∀ directory ∈ directories,
      ∀ name ∈ view.fileNames directory, ¬ view.Fails directory name) ∧
    (told.code ≠ 2 → ∃ lines summary,
      scan .zero (directories.map view.listing) = (lines, .ok summary) ∧
      told = ⟨if summary.invalid = 0 then 0 else 1, lines ++ [summary.line]⟩ ∧
      summary.valid + summary.invalid + summary.skipped =
        (directories.map fun directory => (view.fileNames directory).length).sum ∧
      summary.skipped = (directories.map fun directory =>
        (view.fileNames directory).countP fun name => (fileName? name).isNone).sum) ∧
    ∀ other, view.Reorders other → (other.run command).code = told.code ∧
      (scan .zero (directories.map other.listing)).2.toOption =
        (scan .zero (directories.map view.listing)).2.toOption := by
  intro command directories told
  have run : told = report (directories.map view.listing) := view.run_unicode program arguments
  rw [run]
  refine ⟨?_, ?_, ?_, ?_, ?_⟩
  · exact not_iff_not.mp (code_listings_ne_two_iff.trans (by simp [directories]))
  · have finished (code : (report (directories.map view.listing)).code = 1) :
        (report (directories.map view.listing)).code ≠ 2 := code ▸ by decide
    exact ⟨fun code => ⟨finished code, (code_listings_eq_one_iff (finished code)).mp code⟩,
      fun ⟨finished, failing⟩ => (code_listings_eq_one_iff finished).mpr failing⟩
  · have finished (code : (report (directories.map view.listing)).code = 0) :
        (report (directories.map view.listing)).code ≠ 2 := code ▸ by decide
    exact ⟨fun code => ⟨finished code, (code_listings_eq_zero_iff (finished code)).mp code⟩,
      fun ⟨finished, passing⟩ => (code_listings_eq_zero_iff finished).mpr passing⟩
  · intro finished
    have listed := forall_failure_iff.mpr (code_listings_ne_two_iff.mp finished).2
    refine ⟨_, _, scan_of_listed listed, report_of_code_ne_two finished, ?_, ?_⟩
    · exact (Summary.total_ofEntries _).trans (length_entries view directories)
    · rw [Summary.skipped_ofEntries]
      exact countP_entries view directories fun name => (fileName? name).isNone
  · intro other reorders
    rw [other.run_unicode program arguments]
    exact ⟨reorders.code directories, reorders.scan directories⟩

/-- A directory in which there is only a link, to a file that is no image. No regular file lies in
it, yet the check finds an invalid one. A text that is not Unicode breaks the check off. -/
theorem report_scan_linked :
    let name := "tex2d_00000000000000000000000000000000_1x1x1.dds"
    let files := (((FileSystem.initial ⟨0⟩).setNode ["d"] (.directory ⟨0⟩)).setNode
      ["outside"] (.file [0] ⟨0⟩)).setNode ["d", name] (.link (Path.ofNames ["outside"]))
    let view := DirectoryView.ofFiles files
    (∀ entry contents modified, files.node? ["d", entry] ≠ some (.file contents modified)) ∧
      (view.run (["dump_check", "/d"].map .unicode)).code = 1 ∧
      (view.run [.unicode "dump_check", .raw [0x64, 0x75, 0x6d, 0x70, 0xff] (by decide)]).code =
        101 := by
  intro name files view
  refine ⟨fun entry contents modified => ?_, by decide +kernel, rfl⟩
  simp only [files, FileSystem.setNode, FileSystem.node?, Table.find?_insert, FileSystem.initial]
  split <;> simp

end DirectoryView
end TextureCache.DumpCheck
