import TextureCache.Proofs.FileSystem.Separate

/-! What is in a directory. The list of a directory names the entries at its location, and a path
that joins a name to the directory leads to the entry of that name there, however the directory is
spelled and over however many links it is reached. -/
namespace TextureCache.FileSystem

/-- No link has the name of a step that leads elsewhere. -/
def ProperLinks (files : FileSystem) : Prop :=
  ∀ location name target,
    files.node? (location ++ [name]) = some (.link target) → LastStep.ofSegment name = .name name

theorem properLinks_initial (clock : Time) : (initial clock).ProperLinks := by
  intro location name target entry
  have root : (initial clock).node? (location ++ [name]) = none :=
    (Table.find?_insert _ _ _ _).trans (if_neg (List.concat_ne_nil name location))
  rw [root] at entry
  cases entry

private theorem GainsFiles.properLinks {before after : FileSystem} (gains : before.GainsFiles after)
    (proper : before.ProperLinks) : after.ProperLinks :=
  fun location name target link => proper location name target (gains.link_iff.mp link)

/-! ## Lists -/

def namesUnder (files : FileSystem) (location : Location) : List String :=
  (files.nodes.entries.filterMap fun entry =>
    match entry.1.getLast? with
    | some name => if entry.1 = location ++ [name] then some name else none
    | none => none).mergeSort (· ≤ ·)

private theorem mem_namesUnder {files : FileSystem} {location : Location} {name : String} :
    name ∈ files.namesUnder location ↔ (files.node? (location ++ [name])).isSome := by
  unfold namesUnder
  rw [List.mem_mergeSort, List.mem_filterMap, Option.isSome_iff_exists]
  constructor
  · rintro ⟨⟨key, node⟩, member, named⟩
    split at named
    · rename_i last
      split at named
      · rename_i same
        cases named
        exact ⟨node, Table.find?_eq_some_iff.mpr (same ▸ member)⟩
      · cases named
    · cases named
  · rintro ⟨node, found⟩
    refine ⟨(location ++ [name], node), Table.find?_eq_some_iff.mp found, ?_⟩
    simp only [List.getLast?_concat, if_true]

theorem list_eq_ok_iff {files : FileSystem} {path : Path} {names : List String} :
    files.list path = .ok names ↔ ∃ location modified,
      files.find path = .ok (location, .directory modified) ∧
        names = files.namesUnder location := by
  unfold list
  cases files.find path with
  | error fault => simp [bind, Except.bind]
  | ok found =>
    obtain ⟨location, node⟩ := found
    cases node with
    | directory modified =>
      constructor
      · intro same
        cases same
        exact ⟨location, modified, rfl, rfl⟩
      · rintro ⟨_, _, same, rfl⟩
        cases same
        rfl
    | file contents modified => simp [bind, Except.bind]
    | link target => simp [bind, Except.bind]

private theorem nodup_namesUnder (files : FileSystem) (location : Location) :
    (files.namesUnder location).Nodup := by
  unfold namesUnder
  rw [(List.mergeSort_perm _ _).nodup_iff]
  refine List.pairwise_filterMap.mpr ((List.pairwise_map.mp files.nodes.distinct).imp ?_)
  intro first second different name named name' named' same
  subst same
  apply different
  -- Both keys are the location with the name.
  have key {entry : Location × Node} {name : String} (named : (match entry.1.getLast? with
      | some name => if entry.1 = location ++ [name] then some name else none
      | none => none) = some name) : entry.1 = location ++ [name] := by
    split at named
    · split at named <;> cases named
      assumption
    · cases named
  rw [key named, key named']

private theorem GainsFiles.find_directory {before after : FileSystem}
    (gains : before.GainsFiles after) {path : Path} {location : Location} {modified : Time}
    (found : before.find path = .ok (location, .directory modified)) :
    after.find path = .ok (location, .directory modified) := by
  unfold find at found ⊢
  cases walked : before.walk (fun _ => true) path with
  | error fault => simp [walked, bind, Except.bind] at found
  | ok place =>
    rw [walked] at found
    obtain ⟨arrived, entry⟩ := held_of_entryAt found
    have kept : after.node? location = some (.directory modified) := by
      rcases gains location with same | ⟨none | ⟨_, _, file⟩, _⟩
      · rw [same, entry]
      · simp [none] at entry
      · simp [file] at entry
    simp [gains.walk walked, entryAt, arrived, kept, bind, Except.bind]

/-! ## Ways into a directory -/

/-- The location that the last step of a path stands for. A path of no step, other than that of the
root, stands for where it starts. -/
def PathEnd.bottom (place : PathEnd) : Location :=
  match place.last with
  | .root | .current => place.directory
  | .parent => place.directory.dropLast
  | .name name => place.directory ++ [name]

variable {files : FileSystem} {name : String}

/-- A way with one more name stops where the way without it stops, or it goes on with the name from
there. -/
def Stop.Extends (files : FileSystem) (name : String) (blanks : List String) (longer : Stop) :
    Stop → Prop
  | .arrived place => (∃ fault, longer = .fault fault) ∨
      longer = files.resume not place.bottom name [] .last
  | .link directory target rest =>
      (∃ fault, longer = .fault fault) ∨ ∃ names, rest = names ++ blanks ∧
        longer = .link directory target (names ++ [name])
  | .fault _ => True

private theorem all_blank_append_false (plain : LastStep.ofSegment name = .name name)
    (names : List String) : (names ++ [name]).all (· = "") = false := by
  simp [(LastStep.ofSegment_eq_name_iff.mp plain).1]

private theorem walkNames_blanks (plain : LastStep.ofSegment name = .name name)
    (location : Location) {blanks : List String} (blank : blanks.all (· = "") = true) :
    (∃ fault, files.walkNames not location (blanks ++ [name]) = .fault fault) ∨
      files.walkNames not location (blanks ++ [name]) =
        files.resume not location name [] .last := by
  have proper := (LastStep.ofSegment_eq_name_iff.mp plain).1
  induction blanks with
  | nil =>
    rcases files.fault_or_turns location name [] with ⟨fault, stops⟩ | ⟨turn, turns⟩
    · exact .inl ⟨fault, stops not⟩
    · rw [List.nil_append, turns.walkNames]
      cases turns with
      | root empty isLast => exact absurd empty proper
      | last _ isLast directory => exact .inr rfl
      | stay stays more directory => cases more
      | up parent more directory => cases more
      | link ordinary short more directory entry => cases more
      | down ordinary short more directory entry noLink => cases more
  | cons first rest ih =>
    obtain ⟨empty, others⟩ := Bool.and_eq_true_iff.mp blank
    obtain rfl : first = "" := of_decide_eq_true empty
    have further := all_blank_append_false plain rest
    rcases files.fault_or_turns location "" (rest ++ [name]) with ⟨fault, stops⟩ | ⟨turn, turns⟩
    · exact .inl ⟨fault, stops not⟩
    · rw [List.cons_append, turns.walkNames]
      cases turns with
      | root empty isLast => exact absurd (isLast.symm.trans further) Bool.noConfusion
      | last _ isLast directory => exact absurd (isLast.symm.trans further) Bool.noConfusion
      | stay stays more directory => exact ih others
      | up parent more directory => exact absurd parent (by decide)
      | link ordinary short more directory entry => cases ordinary
      | down ordinary short more directory entry noLink => cases ordinary

private theorem resume_last_of_no_link (follow : Bool → Bool) {location : Location}
    (rest : List String)
    (noLink : ∀ target, files.node? (location ++ [name]) ≠ some (.link target)) :
    files.resume follow location name rest .last =
      .arrived ⟨location, .ofSegment name, rest ≠ []⟩ := by
  unfold resume
  dsimp only
  split
  · rename_i target link
    exact absurd link (noLink target)
  · rfl

private theorem extends_last (proper : files.ProperLinks)
    (plain : LastStep.ofSegment name = .name name)
    (location : Location) {first : String} {rest blanks : List String} (named : first ≠ "")
    (empty : rest.all (· = "") = true) :
    Stop.Extends files name blanks (files.walkNames not location (first :: (rest ++ [name])))
      (files.resume (fun _ => true) location first (rest ++ blanks) .last) := by
  have further := all_blank_append_false plain rest
  have onward (next : Location) := @walkNames_blanks files name plain next rest empty
  -- Dots are names of no entry, so of no link either.
  have ordinary {target : Path} (link : files.node? (location ++ [first]) = some (.link target)) :
      LastStep.ofSegment first = .name first := proper location first target link
  rcases files.fault_or_turns location first (rest ++ [name]) with ⟨fault, stops⟩ | ⟨turn, turns⟩
  · rw [stops]
    cases entry : files.resume (fun _ => true) location first (rest ++ blanks) .last with
    | arrived place => exact .inl ⟨fault, rfl⟩
    | link directory target rest => exact .inl ⟨fault, rfl⟩
    | fault other => trivial
  · rw [turns.walkNames]
    cases turns with
    | root blank isLast => exact absurd blank named
    | last _ isLast directory => exact absurd (isLast.symm.trans further) Bool.noConfusion
    | stay stays more directory =>
      obtain rfl : first = "." := stays.resolve_left named
      rw [resume_last_of_no_link _ _ fun target link => by cases ordinary link]
      exact onward location
    | up parent more directory =>
      subst parent
      rw [resume_last_of_no_link _ _ fun target link => by cases ordinary link]
      exact onward location.dropLast
    | link ordinary short more directory entry =>
      unfold resume
      dsimp only
      rw [entry]
      exact .inr ⟨rest, rfl, rfl⟩
    | down ordinary short more directory entry noLink =>
      rw [resume_last_of_no_link _ _ fun target link =>
        noLink target (Option.some.inj (entry.symm.trans link)), ordinary]
      exact onward (location ++ [first])

/-- A way that follows every link, and the way with one more name in place of its last slash. -/
theorem walkNames_extends (proper : files.ProperLinks)
    (plain : LastStep.ofSegment name = .name name) {blanks : List String}
    (blank : blanks.all (· = "") = true) (location : Location) (names : List String) :
    Stop.Extends files name blanks (files.walkNames not location (names ++ [name]))
      (files.walkNames (fun _ => true) location (names ++ blanks)) := by
  induction names generalizing location with
  | nil =>
    have onward := @walkNames_blanks files name plain location [] rfl
    cases blanks with
    | nil => exact onward
    | cons first others =>
      obtain ⟨empty, others⟩ := Bool.and_eq_true_iff.mp blank
      have turns : files.Turns location first _ _ := .root (of_decide_eq_true empty) others
      rw [List.nil_append, List.nil_append, turns.walkNames]
      exact onward
  | cons first rest ih =>
    rw [List.cons_append, List.cons_append]
    have further := all_blank_append_false plain rest
    rcases files.fault_or_turns location first (rest ++ blanks) with ⟨fault, stops⟩ | ⟨turn, turns⟩
    · rw [stops]
      trivial
    · rw [turns.walkNames]
      have split (isLast : (rest ++ blanks).all (· = "") = true) : rest.all (· = "") = true := by
        rw [List.all_append, Bool.and_eq_true] at isLast
        exact isLast.1
      cases turns with
      | root empty isLast =>
        have stays := @walkNames_blanks files name plain location (first :: rest)
          (by rw [List.all_cons, split isLast, empty]; rfl)
        exact stays
      | last named isLast directory => exact extends_last proper plain location named (split isLast)
      | stay stays more directory =>
        have turns : files.Turns location first (rest ++ [name]) _ := .stay stays further directory
        rw [turns.walkNames]
        exact ih location
      | up parent more directory =>
        have turns : files.Turns location first (rest ++ [name]) _ := .up parent further directory
        rw [turns.walkNames]
        exact ih location.dropLast
      | link ordinary short more directory entry =>
        have turns : files.Turns location first (rest ++ [name]) _ :=
          .link ordinary short further directory entry
        rw [turns.walkNames]
        exact .inr ⟨rest, rfl, rfl⟩
      | down ordinary short more directory entry noLink =>
        have turns : files.Turns location first (rest ++ [name]) _ :=
          .down ordinary short further directory entry noLink
        rw [turns.walkNames]
        exact ih (location ++ [first])

private theorem holdsDirectory_of_checked_last {location : Location}
    (checked : (files.resume not location name [] .last).Checked files) :
    files.HoldsDirectory location ∧ files.Reached location := by
  unfold resume at checked
  dsimp only at checked
  split at checked
  · exact checked
  · obtain ⟨directory, reached, -⟩ := checked rfl
    exact ⟨directory, reached⟩

/-- A path leads into a place: to an entry of a directory, unless that is a link. -/
def Into (files : FileSystem) (name : String) (bottom : Location) (place : PathEnd) : Prop :=
  files.HoldsDirectory bottom ∧ files.Reached bottom ∧
    ((∀ target, files.node? (bottom ++ [name]) ≠ some (.link target)) →
      place = ⟨bottom, .name name, false⟩)

private theorem into_of_arrived (plain : LastStep.ofSegment name = .name name) {links : Nat}
    {location : Location} {names blanks : List String} {place longer : PathEnd}
    (reached : files.Reached location)
    (goesOn : Stop.Extends files name blanks (files.walkNames not location (names ++ [name]))
      (.arrived place))
    (further : files.walkLinks not links location (names ++ [name]) = .ok longer) :
    files.Into name place.bottom longer := by
  rcases goesOn with ⟨fault, stops⟩ | goesOn
  · cases links <;> simp [walkLinks, stops] at further
  · have checked := walkNames_checked files location (names ++ [name]) reached
      fun none => absurd none (List.concat_ne_nil _ _)
    rw [goesOn] at checked
    obtain ⟨directory, above⟩ := holdsDirectory_of_checked_last checked
    refine ⟨directory, above, fun noLink => ?_⟩
    rw [resume_last_of_no_link _ _ noLink, plain] at goesOn
    cases links <;> simp only [walkLinks, goesOn, Except.ok.injEq] at further <;> exact further.symm

private theorem walkLinks_into (proper : files.ProperLinks)
    (plain : LastStep.ofSegment name = .name name)
    {blanks : List String} (blank : blanks.all (· = "") = true) (links : Nat) (location : Location)
    (names : List String) (reached : files.Reached location) {place longer : PathEnd}
    (walked : files.walkLinks (fun _ => true) links location (names ++ blanks) = .ok place)
    (further : files.walkLinks not links location (names ++ [name]) = .ok longer) :
    files.Into name place.bottom longer := by
  induction links generalizing location names with
  | zero =>
    have goesOn := walkNames_extends proper plain blank location names
    unfold walkLinks at walked
    cases stop : files.walkNames (fun _ => true) location (names ++ blanks) with
    | link directory target rest => simp [stop] at walked
    | fault fault => simp [stop] at walked
    | arrived arrived =>
      simp only [stop, Except.ok.injEq] at walked
      subst walked
      exact into_of_arrived plain reached (stop ▸ goesOn) further
  | succ links ih =>
    have goesOn := walkNames_extends proper plain blank location names
    unfold walkLinks at walked
    cases stop : files.walkNames (fun _ => true) location (names ++ blanks) with
    | fault fault => simp [stop] at walked
    | arrived arrived =>
      simp only [stop, Except.ok.injEq] at walked
      subst walked
      exact into_of_arrived plain reached (stop ▸ goesOn) further
    | link directory target rest =>
      rw [stop] at goesOn
      simp only [stop] at walked
      unfold walkLinks at further
      rcases goesOn with ⟨fault, stops⟩ | ⟨more, rfl, goesOn⟩
      · simp [stops] at further
      · have checked := walkNames_checked files location (names ++ [name]) reached
          fun none => absurd none (List.concat_ne_nil _ _)
        rw [goesOn] at checked
        simp only [goesOn] at further
        rw [← List.append_assoc] at walked further
        refine ih _ _ ?_ walked further
        split
        · exact reached_root files
        · exact checked.2

private theorem namesOf_cons (first : String) {rest : List String} (more : rest ≠ []) :
    namesOf ⟨first :: rest⟩ = if first = "" then rest else first :: rest := by
  obtain ⟨second, others, rfl⟩ := List.exists_cons_of_ne_nil more
  by_cases empty : first = ""
  · subst empty
    rfl
  · simp [namesOf, Path.isAbsolute, empty]

private theorem exists_namesOf_join (directory : Path) (name : String) :
    ∃ names blanks, blanks.all (· = "") = true ∧ namesOf directory = names ++ blanks ∧
      namesOf (directory.join name) = names ++ [name] := by
  obtain ⟨segments⟩ := directory
  unfold Path.join
  split
  · rename_i slash
    obtain ⟨before, rfl⟩ := List.getLast?_eq_some_iff.mp slash
    rw [List.dropLast_concat]
    cases before with
    | nil => exact ⟨[], [""], rfl, rfl, by simp [namesOf, Path.isAbsolute]⟩
    | cons first rest =>
      rw [List.cons_append, List.cons_append, namesOf_cons first (List.concat_ne_nil _ _),
        namesOf_cons first (List.concat_ne_nil _ _)]
      by_cases root : first = ""
      · exact ⟨rest, [""], rfl, by rw [if_pos root], by rw [if_pos root]⟩
      · exact ⟨first :: rest, [""], rfl, by rw [if_neg root]; rfl, by rw [if_neg root]; rfl⟩
  · rename_i bare
    refine ⟨namesOf ⟨segments⟩, [], rfl, (List.append_nil _).symm, ?_⟩
    rcases segments with _ | ⟨first, _ | ⟨second, rest⟩⟩
    · simp [namesOf, Path.isAbsolute]
    · have proper : first ≠ "" := fun same => bare (by rw [same]; rfl)
      simp [namesOf, Path.isAbsolute, proper]
    · rw [List.cons_append, namesOf_cons first (List.concat_ne_nil _ _),
        namesOf_cons first (List.cons_ne_nil _ _)]
      by_cases root : first = ""
      · rw [if_pos root, if_pos root]
      · rw [if_neg root, if_neg root]
        rfl

private theorem walk_into (proper : files.ProperLinks)
    (plain : LastStep.ofSegment name = .name name) {directory : Path} {place longer : PathEnd}
    (walked : files.walk (fun _ => true) directory = .ok place)
    (further : files.walk not (directory.join name) = .ok longer) :
    files.Into name place.bottom longer := by
  obtain ⟨names, blanks, blank, bare, joined⟩ := exists_namesOf_join directory name
  unfold walk at walked further
  split at walked
  · cases walked
  · split at further
    · cases further
    · rw [bare] at walked
      rw [joined] at further
      exact walkLinks_into proper plain blank linkLimit [] names (reached_root files) walked further

/-- Where the entries of a directory are: at the bottom of the way to it, unless the way has no step
other than that of the root. -/
theorem location_of_bottom {place : PathEnd} {location : Location}
    (arrived : place.location = .ok location) :
    location = place.bottom ∨ place.last = .root ∧ location = [] := by
  unfold PathEnd.location at arrived
  unfold PathEnd.bottom
  cases last : place.last with
  | root =>
    rw [last] at arrived
    cases arrived
    exact .inr ⟨rfl, rfl⟩
  | current =>
    rw [last] at arrived
    cases arrived
    exact .inl rfl
  | parent =>
    rw [last] at arrived
    cases arrived
    exact .inl rfl
  | name name =>
    simp only [last] at arrived
    split at arrived <;> cases arrived
    exact .inl rfl

/-- A write under a name in a directory goes to the entry of that name, if the directory holds no
link of the name; the root must not hold further directories. -/
theorem writeTarget_join (proper : files.ProperLinks)
    (plain : LastStep.ofSegment name = .name name) {directory : Path}
    {location reached : Location} {node : Node}
    (found : files.find directory = .ok (location, node))
    (noLink : ∀ target, files.node? (location ++ [name]) ≠ some (.link target))
    (noDirectory : location = [] → ∀ other, ¬ files.HoldsDirectory [other])
    (target : files.writeTarget (directory.join name) = .ok reached) :
    reached = location ++ [name] := by
  obtain ⟨longer, further, _, arrived, _⟩ := writeTarget_eq_ok_iff.mp target
  unfold find at found
  cases walked : files.walk (fun _ => true) directory with
  | error fault => simp [walked, bind, Except.bind] at found
  | ok place =>
    obtain ⟨directory, above, into⟩ := walk_into proper plain walked further
    rw [walked] at found
    have there := location_of_entryAt found
    have bottom : place.bottom = location := by
      rcases location_of_bottom there with same | ⟨_, root⟩
      · exact same.symm
      · subst root
        cases final : place.bottom with
        | nil => rfl
        | cons first rest =>
          have inside : [first] <+: place.bottom := final ▸ ⟨rest, rfl⟩
          exact absurd (above.holdsDirectory directory inside) (noDirectory rfl first)
    rw [bottom] at into
    rw [into noLink, PathEnd.location] at arrived
    dsimp only at arrived
    split at arrived <;> cases arrived
    rfl

/-- A directory that was empty holds what was written into it, and nothing else. -/
theorem list_of_writeAll {before after : FileSystem} {directory : Path}
    {written : List (String × Bytes)} (proper : before.ProperLinks)
    (plain : ∀ file ∈ written, LastStep.ofSegment file.1 = .name file.1)
    (empty : before.list directory = .ok [])
    (done : before.writeAll (written.map fun file => (directory.join file.1, file.2)) =
      .ok after) :
    ∃ names, after.list directory = .ok names ∧ names.Nodup ∧
      (∀ name, name ∈ names ↔ name ∈ written.map Prod.fst) ∧
      ∀ name ∈ names, ∃ contents, (name, contents) ∈ written ∧
        after.isFile (directory.join name) = true ∧
        after.read (directory.join name) = .ok contents := by
  obtain ⟨location, modified, found, none⟩ := list_eq_ok_iff.mp empty
  have gains := gainsFiles_of_writeAll done
  have there := gains.find_directory found
  have missing (name : String) : before.node? (location ++ [name]) = .none := by
    apply Option.not_isSome_iff_eq_none.mp
    rw [← mem_namesUnder, ← none]
    exact List.not_mem_nil
  have noDirectory : location = [] → ∀ other, ¬ after.HoldsDirectory [other] := by
    rintro rfl other directory
    obtain ⟨modified, entry⟩ := gains.holdsDirectory_iff.mp directory
    cases (missing other).symm.trans entry
  have lands {file : String × Bytes} (member : file ∈ written) {reached : Location}
      (target : after.writeTarget (directory.join file.1) = .ok reached) :
      reached = location ++ [file.1] := by
    refine writeTarget_join (gains.properLinks proper) (plain file member) there ?_ noDirectory
      target
    intro other link
    cases (missing file.1).symm.trans (gains.link_iff.mp link)
  have held (name : String) (member : name ∈ after.namesUnder location) :
      ∃ contents, (name, contents) ∈ written ∧ after.isFile (directory.join name) = true ∧
        after.read (directory.join name) = .ok contents := by
    rcases node?_of_writeAll done (location ++ [name]) with
      ⟨same, _⟩ | ⟨entry, inside, target, time, node⟩
    · have some := mem_namesUnder.mp member
      rw [same, missing] at some
      cases some
    · obtain ⟨file, fileMember, rfl⟩ := List.mem_map.mp inside
      obtain rfl : name = file.1 := by simpa using lands fileMember target
      exact ⟨file.2, fileMember, isFile_of_writeTarget target ⟨_, _, node⟩,
        read_of_writeTarget target node⟩
  refine ⟨_, list_eq_ok_iff.mpr ⟨location, modified, there, rfl⟩, nodup_namesUnder _ _, ?_, held⟩
  intro name
  constructor
  · intro member
    obtain ⟨contents, inside, _⟩ := held name member
    exact List.mem_map.mpr ⟨_, inside, rfl⟩
  · intro member
    obtain ⟨file, inside, rfl⟩ := List.mem_map.mp member
    obtain ⟨reached, target, contents, time, node⟩ := exists_writeTarget_of_writeAll done
      (List.mem_map.mpr ⟨_, List.mem_map_of_mem inside, rfl⟩)
    rw [mem_namesUnder, ← lands inside target, node]
    rfl

end TextureCache.FileSystem
