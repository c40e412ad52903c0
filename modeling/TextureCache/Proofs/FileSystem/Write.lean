import TextureCache.Proofs.FileSystem.Walk

/-! What a write leaves behind. A write puts one file at the place to which its path leads, and a
tree that only gained files, or new contents of files, leads every path that could be walked before
to the same place. So a path that was written leads to what was written last at its place. -/
namespace TextureCache.FileSystem

/-- A file can be put at a location: there is a file already, or nothing. -/
def Writable (files : FileSystem) (location : Location) : Prop :=
  files.node? location = none ∨ files.HoldsFile location

@[simp] theorem node?_setNode (files : FileSystem) (changed location : Location) (node : Node) :
    (files.setNode changed node).node? location =
      if location = changed then some node else files.node? location :=
  Table.find?_insert files.nodes changed node location

/-! ## The place of a write -/

/-- The location at which a write puts its file. -/
def writeTarget (files : FileSystem) (path : Path) : Except FileFault Location := do
  let place ← files.walk not path
  if place.slash then .error .isADirectory
  else
    let location ← place.location
    match files.node? location with
    | some (.directory _) => .error .isADirectory
    | _ => .ok location

private theorem write_eq (files : FileSystem) (path : Path) (contents : Bytes) :
    files.write path contents = (files.writeTarget path).map fun location =>
      files.setNode location (.file contents files.clock) := by
  unfold write writeTarget
  cases walked : files.walk not path with
  | error fault => rfl
  | ok place =>
    cases slash : place.slash with
    | true => simp [slash, bind, Except.bind, Except.map]
    | false =>
      cases found : place.location with
      | error fault => simp [slash, found, bind, Except.bind, Except.map]
      | ok location =>
        simp only [slash, found, bind, Except.bind, Bool.false_eq_true, if_false]
        cases entry : files.node? location with
        | none => rfl
        | some node => cases node <;> rfl

theorem write_eq_ok_iff {files after : FileSystem} {path : Path} {contents : Bytes} :
    files.write path contents = .ok after ↔ ∃ location, files.writeTarget path = .ok location ∧
      after = files.setNode location (.file contents files.clock) := by
  rw [write_eq]
  cases files.writeTarget path with
  | error fault => simp [Except.map]
  | ok location => simp [Except.map, eq_comm]

theorem writeTarget_eq_ok_iff {files : FileSystem} {path : Path} {location : Location} :
    files.writeTarget path = .ok location ↔ ∃ place, files.walk not path = .ok place ∧
      place.slash = false ∧ place.location = .ok location ∧ ¬ files.HoldsDirectory location := by
  unfold writeTarget HoldsDirectory
  cases walked : files.walk not path with
  | error fault => simp [bind, Except.bind]
  | ok place =>
    cases slash : place.slash with
    | true => simp [slash, bind, Except.bind]
    | false =>
      cases found : place.location with
      | error fault => simp [slash, found, bind, Except.bind]
      | ok reached =>
        simp only [slash, found, bind, Except.bind, Bool.false_eq_true, if_false]
        split
        · rename_i modified directory
          simp only [reduceCtorEq, false_iff]
          rintro ⟨_, same, _, target, free⟩
          cases same
          cases found.symm.trans target
          exact free ⟨modified, directory⟩
        · rename_i free
          constructor
          · intro same
            cases same
            exact ⟨place, rfl, slash, found, fun ⟨modified, directory⟩ => free modified directory⟩
          · rintro ⟨_, same, _, target, _⟩
            cases same
            cases found.symm.trans target
            rfl

theorem writable_of_writeTarget {files : FileSystem} {path : Path} {location : Location}
    (target : files.writeTarget path = .ok location) : files.Writable location := by
  obtain ⟨place, walked, slash, found, free⟩ := writeTarget_eq_ok_iff.mp target
  obtain ⟨directory, reached, noLink⟩ := walk_checked walked slash
  unfold PathEnd.location at found
  have above (parent : Location) (before : parent <+: place.directory)
      (same : Except.ok parent = (Except.ok location : Except FileFault Location)) : False := by
    cases same
    exact free (reached.holdsDirectory directory before)
  cases last : place.last with
  | root =>
    rw [last] at found
    exact (above [] List.nil_prefix found).elim
  | current =>
    rw [last] at found
    exact (above _ List.prefix_rfl found).elim
  | parent =>
    rw [last] at found
    exact (above _ (List.dropLast_prefix _) found).elim
  | name name =>
    have same : location = place.directory ++ [name] := by
      simp only [last] at found
      split at found <;> cases found
      rfl
    subst same
    cases entry : files.node? (place.directory ++ [name]) with
    | none => exact .inl entry
    | some node =>
      cases node with
      | directory modified => exact absurd ⟨modified, entry⟩ free
      | file contents modified => exact .inr ⟨contents, modified, entry⟩
      | link target => exact absurd entry (noLink name target last)

/-! ## Trees that gained files -/

/-- Where one tree differs from another, it has a file where one could be put. -/
def GainsFiles (before after : FileSystem) : Prop :=
  ∀ location, after.node? location = before.node? location ∨
    before.Writable location ∧ after.HoldsFile location

theorem GainsFiles.refl (files : FileSystem) : files.GainsFiles files := fun _ => .inl rfl

theorem GainsFiles.trans {first second third : FileSystem} (early : first.GainsFiles second)
    (late : second.GainsFiles third) : first.GainsFiles third := by
  intro location
  rcases late location with same | ⟨writable, file⟩
  · rcases early location with equal | ⟨writable, contents, modified, file⟩
    · exact .inl (same.trans equal)
    · exact .inr ⟨writable, contents, modified, same.trans file⟩
  · rcases early location with same | ⟨earlier, _⟩
    · refine .inr ⟨?_, file⟩
      rcases writable with none | ⟨contents, modified, old⟩
      · exact .inl (same ▸ none)
      · exact .inr ⟨contents, modified, same ▸ old⟩
    · exact .inr ⟨earlier, file⟩

theorem GainsFiles.link_iff {before after : FileSystem} (gains : before.GainsFiles after)
    {location : Location} {target : Path} :
    after.node? location = some (.link target) ↔ before.node? location = some (.link target) := by
  rcases gains location with same | ⟨none | ⟨_, _, file⟩, _, _, new⟩
  · rw [same]
  · simp [none, new]
  · simp [file, new]

theorem GainsFiles.holdsDirectory_iff {before after : FileSystem} (gains : before.GainsFiles after)
    {location : Location} : after.HoldsDirectory location ↔ before.HoldsDirectory location := by
  unfold HoldsDirectory
  rcases gains location with same | ⟨none | ⟨_, _, file⟩, _, _, new⟩
  · rw [same]
  · simp [none, new]
  · simp [file, new]

theorem GainsFiles.holdsFile {before after : FileSystem} (gains : before.GainsFiles after)
    {location : Location} (file : before.HoldsFile location) : after.HoldsFile location := by
  rcases gains location with same | ⟨_, new⟩
  · obtain ⟨contents, modified, entry⟩ := file
    exact ⟨contents, modified, same.trans entry⟩
  · exact new

private theorem GainsFiles.match_link {Result : Type} {before after : FileSystem}
    (gains : before.GainsFiles after) (location : Location) (linked : Path → Result)
    (other : Result) :
    (match after.node? location with
      | some (.link target) => linked target
      | _ => other) =
    match before.node? location with
      | some (.link target) => linked target
      | _ => other := by
  rcases gains location with same | ⟨none | ⟨_, _, file⟩, _, _, new⟩
  · rw [same]
  · rw [none, new]
  · rw [file, new]

theorem GainsFiles.turns {before after : FileSystem} (gains : before.GainsFiles after)
    {location : Location} {name : String} {rest : List String} {turn : Turn}
    (turns : before.Turns location name rest turn) : after.Turns location name rest turn := by
  cases turns with
  | root blank isLast => exact .root blank isLast
  | last proper isLast directory =>
    exact .last proper isLast (gains.holdsDirectory_iff.mpr directory)
  | stay stays more directory => exact .stay stays more (gains.holdsDirectory_iff.mpr directory)
  | up parent more directory => exact .up parent more (gains.holdsDirectory_iff.mpr directory)
  | link ordinary short more directory entry =>
    exact .link ordinary short more (gains.holdsDirectory_iff.mpr directory)
      (gains.link_iff.mpr entry)
  | @down node ordinary short more directory entry noLink =>
    have there := gains.holdsDirectory_iff.mpr directory
    rcases gains (location ++ [name]) with same | ⟨_, contents, modified, file⟩
    · exact .down ordinary short more there (same.trans entry) noLink
    · exact .down ordinary short more there file nofun

theorem GainsFiles.walkNames {before after : FileSystem} (gains : before.GainsFiles after)
    (follow : Bool → Bool) (location : Location) (names : List String)
    (noFault : ∀ fault, before.walkNames follow location names ≠ .fault fault) :
    after.walkNames follow location names = before.walkNames follow location names := by
  induction names generalizing location with
  | nil => rfl
  | cons name rest ih =>
    rcases before.fault_or_turns location name rest with ⟨fault, stops⟩ | ⟨turn, turns⟩
    · exact absurd (stops follow) (noFault fault)
    · rw [turns.walkNames] at noFault
      rw [turns.walkNames, (gains.turns turns).walkNames]
      cases turn with
      | stop stop => rfl
      | last => exact gains.match_link _ _ _
      | onward next => exact ih next noFault

theorem GainsFiles.walkLinks {before after : FileSystem} (gains : before.GainsFiles after)
    (follow : Bool → Bool) (links : Nat) (location : Location) (names : List String)
    {place : PathEnd} (walked : before.walkLinks follow links location names = .ok place) :
    after.walkLinks follow links location names = .ok place := by
  induction links generalizing location names with
  | zero =>
    unfold FileSystem.walkLinks at walked ⊢
    cases stop : before.walkNames follow location names with
    | arrived reached =>
      rw [gains.walkNames follow location names (by simp [stop]), stop]
      simpa only [stop] using walked
    | link _ _ _ => simp [stop] at walked
    | fault _ => simp [stop] at walked
  | succ links ih =>
    unfold FileSystem.walkLinks at walked ⊢
    cases stop : before.walkNames follow location names with
    | arrived reached =>
      rw [gains.walkNames follow location names (by simp [stop]), stop]
      simpa only [stop] using walked
    | link directory target rest =>
      rw [gains.walkNames follow location names (by simp [stop]), stop]
      simp only [stop] at walked
      exact ih _ _ walked
    | fault _ => simp [stop] at walked

theorem GainsFiles.walk {before after : FileSystem} (gains : before.GainsFiles after)
    {follow : Bool → Bool} {path : Path} {place : PathEnd}
    (walked : before.walk follow path = .ok place) : after.walk follow path = .ok place := by
  unfold FileSystem.walk at walked ⊢
  split
  · rename_i fault unusable
    simp [unusable] at walked
  · rename_i usable
    simp only [usable] at walked
    exact gains.walkLinks follow linkLimit [] (namesOf path) walked

/-- A path that could be written can be written at the same location. -/
theorem GainsFiles.writeTarget {before after : FileSystem} (gains : before.GainsFiles after)
    {path : Path} {location : Location} (target : before.writeTarget path = .ok location) :
    after.writeTarget path = .ok location := by
  obtain ⟨place, walked, slash, found, free⟩ := writeTarget_eq_ok_iff.mp target
  exact writeTarget_eq_ok_iff.mpr ⟨place, gains.walk walked, slash, found,
    fun directory => free (gains.holdsDirectory_iff.mp directory)⟩

private theorem gainsFiles_setNode {files : FileSystem} {location : Location}
    (writable : files.Writable location) (contents : Bytes) (modified : Time) :
    files.GainsFiles (files.setNode location (.file contents modified)) := by
  intro other
  by_cases same : other = location
  · exact .inr ⟨same ▸ writable, contents, modified, by simp [same]⟩
  · exact .inl (by simp [same])

private theorem gainsFiles_of_write {before after : FileSystem} {path : Path} {contents : Bytes}
    (written : before.write path contents = .ok after) : before.GainsFiles after := by
  obtain ⟨location, target, rfl⟩ := write_eq_ok_iff.mp written
  exact gainsFiles_setNode (writable_of_writeTarget target) contents before.clock

/-! ## Reading what was written -/

private theorem find_of_writeTarget {files : FileSystem} {path : Path} {location : Location}
    {contents : Bytes} {modified : Time} (target : files.writeTarget path = .ok location)
    (entry : files.node? location = some (.file contents modified)) :
    files.find path = .ok (location, .file contents modified) := by
  obtain ⟨place, walked, slash, found, _⟩ := writeTarget_eq_ok_iff.mp target
  have followed : files.walk (fun _ => true) path = .ok place := by
    unfold walk at walked ⊢
    split
    · rename_i fault unusable
      simp [unusable] at walked
    · rename_i usable
      simp only [usable] at walked
      exact walkLinks_follow linkLimit [] (namesOf path) slash walked
  simp [find, followed, entryAt, found, entry, slash, bind, Except.bind]

theorem location?_of_writeTarget {files : FileSystem} {path : Path} {location : Location}
    (target : files.writeTarget path = .ok location) (file : files.HoldsFile location) :
    files.location? path = some location := by
  obtain ⟨contents, modified, entry⟩ := file
  rw [location?, find_of_writeTarget target entry]
  rfl

theorem isFile_of_writeTarget {files : FileSystem} {path : Path} {location : Location}
    (target : files.writeTarget path = .ok location) (file : files.HoldsFile location) :
    files.isFile path = true := by
  obtain ⟨contents, modified, entry⟩ := file
  simp [isFile, lookUp, find_of_writeTarget target entry, Except.map]

theorem read_of_writeTarget {files : FileSystem} {path : Path} {location : Location}
    {contents : Bytes} {modified : Time} (target : files.writeTarget path = .ok location)
    (entry : files.node? location = some (.file contents modified)) :
    files.read path = .ok contents := by
  simp [FileSystem.read, lookUp, find_of_writeTarget target entry, Except.map, bind, Except.bind]

/-! ## Writing one file after another -/

/-- Write files in order, up to the first that cannot be written. -/
def writeAll (files : FileSystem) (writes : List (Path × Bytes)) : Except FileFault FileSystem :=
  writes.foldlM (fun files written => files.write written.1 written.2) files

theorem writeAll_cons_eq_ok_iff {files after : FileSystem} {path : Path} {contents : Bytes}
    {writes : List (Path × Bytes)} :
    files.writeAll ((path, contents) :: writes) = .ok after ↔
      ∃ next, files.write path contents = .ok next ∧ next.writeAll writes = .ok after := by
  unfold writeAll
  rw [List.foldlM_cons]
  cases files.write path contents with
  | error fault => simp [bind, Except.bind]
  | ok next => simp [bind, Except.bind]

theorem writeAll_append_eq_ok_iff {files after : FileSystem} {first second : List (Path × Bytes)} :
    files.writeAll (first ++ second) = .ok after ↔
      ∃ next, files.writeAll first = .ok next ∧ next.writeAll second = .ok after := by
  unfold writeAll
  rw [List.foldlM_append]
  cases first.foldlM (fun files written => files.write written.1 written.2) files with
  | error fault => simp [bind, Except.bind]
  | ok next => simp [bind, Except.bind]

theorem gainsFiles_of_writeAll {before after : FileSystem} {writes : List (Path × Bytes)}
    (written : before.writeAll writes = .ok after) : before.GainsFiles after := by
  induction writes generalizing before with
  | nil =>
    cases written
    exact .refl _
  | cons entry rest ih =>
    obtain ⟨next, first, others⟩ := writeAll_cons_eq_ok_iff.mp written
    exact (gainsFiles_of_write first).trans (ih others)

/-- No write went to a location and it keeps its entry, or it holds the file of the latest write
that did. -/
theorem node?_of_writeAll {before after : FileSystem} {writes : List (Path × Bytes)}
    (written : before.writeAll writes = .ok after) (location : Location) :
    (after.node? location = before.node? location ∧
      ∀ entry ∈ writes, after.writeTarget entry.1 ≠ .ok location) ∨
    ∃ entry ∈ writes, after.writeTarget entry.1 = .ok location ∧
      ∃ time, after.node? location = some (.file entry.2 time) := by
  induction writes generalizing before with
  | nil =>
    cases written
    exact .inl ⟨rfl, fun entry member => nomatch member⟩
  | cons entry rest ih =>
    obtain ⟨next, first, others⟩ := writeAll_cons_eq_ok_iff.mp written
    obtain ⟨changed, target, rfl⟩ := write_eq_ok_iff.mp first
    have kept := ((gainsFiles_of_write first).trans (gainsFiles_of_writeAll others)).writeTarget
      target
    rcases ih others with ⟨same, spared⟩ | ⟨later, member, held⟩
    · rw [node?_setNode] at same
      by_cases here : location = changed
      · subst here
        exact .inr ⟨entry, List.mem_cons_self, kept, _, same.trans (if_pos rfl)⟩
      · refine .inl ⟨same.trans (if_neg here), List.forall_mem_cons.mpr ⟨?_, spared⟩⟩
        rw [kept]
        exact fun reached => here (Except.ok.inj reached).symm
    · exact .inr ⟨later, List.mem_cons_of_mem _ member, held⟩

theorem exists_writeTarget_of_writeAll {before after : FileSystem} {writes : List (Path × Bytes)}
    (written : before.writeAll writes = .ok after) {path : Path}
    (member : path ∈ writes.map Prod.fst) :
    ∃ location, after.writeTarget path = .ok location ∧ after.HoldsFile location := by
  induction writes generalizing before with
  | nil => cases member
  | cons entry rest ih =>
    obtain ⟨next, first, others⟩ := writeAll_cons_eq_ok_iff.mp written
    rcases List.mem_cons.mp member with rfl | later
    · obtain ⟨location, target, rfl⟩ := write_eq_ok_iff.mp first
      have later := gainsFiles_of_writeAll others
      have kept := ((gainsFiles_of_write first).trans later).writeTarget target
      exact ⟨location, kept, later.holdsFile ⟨_, _, (node?_setNode _ _ _ _).trans (if_pos rfl)⟩⟩
    · exact ih others later

/-- The paths of some writes lead to different entries. -/
def Apart (files : FileSystem) (writes : List (Path × Bytes)) : Prop :=
  writes.Pairwise fun first second => files.location? first.1 ≠ files.location? second.1

/-- Writes that lead to one entry have the same contents. -/
def Agreeing (files : FileSystem) (writes : List (Path × Bytes)) : Prop :=
  ∀ first ∈ writes, ∀ second ∈ writes,
    files.location? first.1 = files.location? second.1 → first.2 = second.2

theorem Apart.agreeing {files : FileSystem} {writes : List (Path × Bytes)}
    (apart : files.Apart writes) : files.Agreeing writes := by
  induction writes with
  | nil => exact fun _ member => absurd member List.not_mem_nil
  | cons entry rest ih =>
    obtain ⟨different, apart⟩ := List.pairwise_cons.mp apart
    intro first member second member' same
    rcases List.mem_cons.mp member with rfl | behind
    · rcases List.mem_cons.mp member' with rfl | behind'
      · rfl
      · exact absurd same (different second behind')
    · rcases List.mem_cons.mp member' with rfl | behind'
      · exact absurd same.symm (different first behind)
      · exact ih apart first behind second behind' same

/-- What was written can be read back, if it was not replaced by anything else. -/
theorem read_of_agreeing {before after : FileSystem} {writes : List (Path × Bytes)}
    (written : before.writeAll writes = .ok after) (agreeing : after.Agreeing writes)
    {path : Path} {contents : Bytes} (member : (path, contents) ∈ writes) :
    after.isFile path = true ∧ after.read path = .ok contents := by
  obtain ⟨location, target, file⟩ :=
    exists_writeTarget_of_writeAll written (List.mem_map_of_mem member)
  refine ⟨isFile_of_writeTarget target file, ?_⟩
  -- The latest of the writes that lead to the file decides.
  rcases node?_of_writeAll written location with ⟨_, spared⟩ | ⟨entry, inside, same, time, node⟩
  · exact absurd target (spared _ member)
  · have equal := agreeing (path, contents) member entry inside
      ((location?_of_writeTarget target file).trans (location?_of_writeTarget same file).symm)
    rw [read_of_writeTarget target node, ← equal]

theorem read_writeAll {before after : FileSystem} {writes : List (Path × Bytes)}
    (written : before.writeAll writes = .ok after) (apart : after.Apart writes)
    {path : Path} {contents : Bytes} (member : (path, contents) ∈ writes) :
    after.isFile path = true ∧ after.read path = .ok contents :=
  read_of_agreeing written apart.agreeing member

end TextureCache.FileSystem
