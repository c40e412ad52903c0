import TextureCache.Proofs.FileSystem.Write

/-! What keeps the files of a directory apart. Two names can lead to one file only over a link: in a
tree without links a path that ends with a name leads to an entry of that name. -/
namespace TextureCache

namespace FileSystem

/-- Names of a list lead to different entries of a directory. -/
def Separates (files : FileSystem) (directory : Path) (names : List String) : Prop :=
  ∀ first ∈ names, ∀ second ∈ names, first ≠ second →
    files.location? (directory.join first) ≠ files.location? (directory.join second)

theorem apart_of_separates {files : FileSystem} {directory : Path} {names : List String}
    {writes : List (Path × Bytes)} (separate : files.Separates directory names)
    (distinct : names.Nodup) (paths : writes.map Prod.fst = names.map directory.join) :
    files.Apart writes := by
  have apart : (names.map directory.join).Pairwise fun first second =>
      files.location? first ≠ files.location? second := by
    apply List.pairwise_map.mpr
    apply distinct.imp_of_mem
    intro first second member member' different
    exact separate first member second member' different
  rw [← paths, List.pairwise_map] at apart
  exact apart

def Unlinked (files : FileSystem) : Prop :=
  ∀ location target, files.node? location ≠ some (.link target)

theorem unlinked_initial (clock : Time) : (initial clock).Unlinked := by
  intro location target link
  have entry : (initial clock).node? location =
      if location = [] then some (.directory clock) else none := Table.find?_insert _ _ _ _
  rw [entry] at link
  split at link <;> cases link

theorem unlinked_of_writeAll {before after : FileSystem} {writes : List (Path × Bytes)}
    (unlinked : before.Unlinked) (written : before.writeAll writes = .ok after) :
    after.Unlinked := by
  intro location target link
  exact unlinked location target ((gainsFiles_of_writeAll written).link_iff.mp link)

variable {files : FileSystem} {name : String}

/-- The way arrives at an entry of a certain name, if it arrives. -/
def Stop.EndsWith (name : String) : Stop → Prop
  | .arrived place => place.last = .name name
  | .link _ _ _ => False
  | .fault _ => True

private theorem walkNames_endsWith (unlinked : files.Unlinked)
    (plain : LastStep.ofSegment name = .name name) (follow : Bool → Bool) (location : Location)
    (names : List String) :
    (files.walkNames follow location (names ++ [name])).EndsWith name := by
  have proper := (LastStep.ofSegment_eq_name_iff.mp plain).1
  induction names generalizing location with
  | nil =>
    rcases files.fault_or_turns location name [] with ⟨fault, stops⟩ | ⟨turn, turns⟩
    · rw [List.nil_append, stops]
      trivial
    · rw [List.nil_append, turns.walkNames]
      cases turns with
      | root blank isLast => exact absurd blank proper
      | last _ isLast directory =>
        simp only [resume]
        split
        · rename_i target link
          exact absurd link (unlinked _ target)
        · exact plain
      | stay stays more directory => cases more
      | up parent more directory => cases more
      | link ordinary short more directory entry => cases more
      | down ordinary short more directory entry noLink => cases more
  | cons first rest ih =>
    have some : (rest ++ [name]).all (· = "") = false := by
      simp [proper]
    rcases files.fault_or_turns location first (rest ++ [name]) with
      ⟨fault, stops⟩ | ⟨turn, turns⟩
    · rw [List.cons_append, stops]
      trivial
    · rw [List.cons_append, turns.walkNames]
      cases turns with
      | root blank isLast => exact absurd (isLast.symm.trans some) Bool.noConfusion
      | last _ isLast directory => exact absurd (isLast.symm.trans some) Bool.noConfusion
      | stay stays more directory => exact ih location
      | up parent more directory => exact ih location.dropLast
      | link ordinary short more directory entry => exact absurd entry (unlinked _ _)
      | down ordinary short more directory entry noLink => exact ih (location ++ [first])

private theorem namesOf_join (directory : Path) (name : String) :
    ∃ names, namesOf (directory.join name) = names ++ [name] := by
  have shape : ∃ segments, directory.join name = ⟨segments ++ [name]⟩ := by
    unfold Path.join
    split
    · exact ⟨_, rfl⟩
    · exact ⟨_, rfl⟩
  obtain ⟨segments, same⟩ := shape
  rw [same]
  unfold namesOf
  split
  · rename_i absolute
    cases segments with
    | nil => simp [Path.isAbsolute] at absolute
    | cons first rest => exact ⟨rest, rfl⟩
  · exact ⟨segments, rfl⟩

private theorem walk_endsWith (unlinked : files.Unlinked)
    (plain : LastStep.ofSegment name = .name name)
    {follow : Bool → Bool} {directory : Path} {place : PathEnd}
    (walked : files.walk follow (directory.join name) = .ok place) : place.last = .name name := by
  obtain ⟨names, split⟩ := namesOf_join directory name
  have ends := walkNames_endsWith unlinked plain follow [] names
  unfold walk at walked
  split at walked
  · cases walked
  · rw [split] at walked
    unfold linkLimit walkLinks at walked
    cases stopped : files.walkNames follow [] (names ++ [name]) with
    | arrived reached =>
      simp only [stopped] at walked ends
      cases walked
      exact ends
    | link location target rest =>
      rw [stopped] at ends
      exact ends.elim
    | fault fault =>
      simp only [stopped] at walked
      cases walked

theorem held_of_entryAt {place : PathEnd} {location : Location} {node : Node}
    (found : files.entryAt place = .ok (location, node)) :
    place.location = .ok location ∧ files.node? location = some node := by
  unfold entryAt at found
  cases reached : place.location with
  | error fault => simp [reached, bind, Except.bind] at found
  | ok actual =>
    simp only [reached, bind, Except.bind] at found
    split at found
    · cases found
    · rename_i entry
      cases found
      exact ⟨rfl, entry⟩
    · rename_i entry
      split at found <;> cases found
      exact ⟨rfl, entry⟩

theorem location_of_entryAt {place : PathEnd} {location : Location} {node : Node}
    (found : files.entryAt place = .ok (location, node)) : place.location = .ok location :=
  (held_of_entryAt found).1

/-- Without links, a path that ends with a proper name leads to an entry of that name. -/
theorem getLast?_of_location? (unlinked : files.Unlinked)
    (plain : LastStep.ofSegment name = .name name) {directory : Path} {location : Location}
    (found : files.location? (directory.join name) = some location) :
    location.getLast? = some name := by
  obtain ⟨entry, there, rfl⟩ := Option.map_eq_some_iff.mp found
  unfold find at there
  cases walked : files.walk (fun _ => true) (directory.join name) with
  | error fault => simp [walked, bind, Except.bind, Except.toOption] at there
  | ok place =>
    have ends := walk_endsWith unlinked plain walked
    have arrived : files.entryAt place = .ok entry := by
      simp only [walked, bind, Except.bind] at there
      cases final : files.entryAt place with
      | error fault => simp [final, Except.toOption] at there
      | ok actual =>
        rw [final] at there
        exact congrArg Except.ok (Option.some.inj there)
    have reached := location_of_entryAt arrived
    simp only [PathEnd.location, ends] at reached
    split at reached
    · cases reached
    · rw [← Except.ok.inj reached]
      exact List.getLast?_concat

/-- Without links, proper names under which files were written are separate. -/
theorem separates_of_unlinked {before after : FileSystem} {directory : Path} {names : List String}
    {writes : List (Path × Bytes)} (unlinked : before.Unlinked)
    (written : before.writeAll writes = .ok after)
    (paths : writes.map Prod.fst = names.map directory.join)
    (plain : ∀ name ∈ names, LastStep.ofSegment name = .name name) :
    after.Separates directory names := by
  intro first member second member' different same
  have inside : directory.join first ∈ writes.map Prod.fst := by
    rw [paths]
    exact List.mem_map_of_mem member
  obtain ⟨location, target, file⟩ := exists_writeTarget_of_writeAll written inside
  have found := location?_of_writeTarget target file
  have without := unlinked_of_writeAll unlinked written
  have ends := getLast?_of_location? without (plain first member) found
  have ends' := getLast?_of_location? without (plain second member') (same ▸ found)
  exact different (Option.some.inj (ends.symm.trans ends'))

end FileSystem
end TextureCache
