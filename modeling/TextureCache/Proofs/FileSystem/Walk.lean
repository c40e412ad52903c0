import TextureCache.FileSystem.Basic

/-! The way along a path. What the first of some names makes of a way is put into a relation once:
the way stops, or ends with the name, or goes on from somewhere. Facts on ways then follow by
induction on the names, with one case for each turn. -/
namespace TextureCache.FileSystem

def HoldsDirectory (files : FileSystem) (location : Location) : Prop :=
  ∃ modified, files.node? location = some (.directory modified)

def HoldsFile (files : FileSystem) (location : Location) : Prop :=
  ∃ contents modified, files.node? location = some (.file contents modified)

/-- The way to a location leads through directories. -/
def Reached (files : FileSystem) (location : Location) : Prop :=
  ∀ parent, parent <+: location → parent ≠ location → files.HoldsDirectory parent

theorem reached_root (files : FileSystem) : files.Reached [] := by
  intro parent before different
  exact absurd (List.prefix_nil.mp before) different

theorem Reached.append {files : FileSystem} {location : Location} (reached : files.Reached location)
    (directory : files.HoldsDirectory location) (name : String) :
    files.Reached (location ++ [name]) := by
  intro parent before different
  rcases List.prefix_concat_iff.mp before with same | before
  · exact absurd same different
  · by_cases same : parent = location
    · exact same ▸ directory
    · exact reached parent before same

private theorem Reached.of_prefix {files : FileSystem} {parent location : Location}
    (reached : files.Reached location) (before : parent <+: location) : files.Reached parent := by
  intro above aboveParent different
  refine reached above (aboveParent.trans before) ?_
  intro same
  subst same
  exact different (aboveParent.eq_of_length_le before.length_le)

/-- Whatever lies above a directory, or is the directory itself, is one. -/
theorem Reached.holdsDirectory {files : FileSystem} {parent location : Location}
    (reached : files.Reached location) (directory : files.HoldsDirectory location)
    (before : parent <+: location) : files.HoldsDirectory parent := by
  by_cases same : parent = location
  · exact same ▸ directory
  · exact reached parent before same

/-! ## Turns -/

/-- What the first of some names makes of a way. -/
inductive Turn where
  | stop (stop : Stop)
  /-- The name is the last one. -/
  | last
  | onward (location : Location)

/-- A way after a turn. -/
def resume (files : FileSystem) (follow : Bool → Bool) (location : Location) (name : String)
    (rest : List String) : Turn → Stop
  | .stop stop => stop
  | .last =>
    match files.node? (location ++ [name]) with
    | some (.link target) =>
      if follow (rest ≠ []) then .link location target rest
      else .arrived ⟨location, .ofSegment name, rest ≠ []⟩
    | _ => .arrived ⟨location, .ofSegment name, rest ≠ []⟩
  | .onward next => files.walkNames follow next rest

/-- The turns that the first of some names can take, other than to a fault. -/
inductive Turns (files : FileSystem) (location : Location) (name : String) (rest : List String) :
    Turn → Prop where
  | root (blank : name = "") (isLast : rest.all (· = "") = true) :
      Turns files location name rest (.stop (.arrived ⟨location, .root, true⟩))
  | last (proper : name ≠ "") (isLast : rest.all (· = "") = true)
      (directory : files.HoldsDirectory location) : Turns files location name rest .last
  | stay (stays : name = "" ∨ name = ".") (more : rest.all (· = "") = false)
      (directory : files.HoldsDirectory location) :
      Turns files location name rest (.onward location)
  | up (parent : name = "..") (more : rest.all (· = "") = false)
      (directory : files.HoldsDirectory location) :
      Turns files location name rest (.onward location.dropLast)
  | link {target : Path} (ordinary : LastStep.ofSegment name = .name name)
      (short : name.utf8ByteSize ≤ nameLimit) (more : rest.all (· = "") = false)
      (directory : files.HoldsDirectory location)
      (entry : files.node? (location ++ [name]) = some (.link target)) :
      Turns files location name rest (.stop (.link location target rest))
  | down {node : Node} (ordinary : LastStep.ofSegment name = .name name)
      (short : name.utf8ByteSize ≤ nameLimit) (more : rest.all (· = "") = false)
      (directory : files.HoldsDirectory location)
      (entry : files.node? (location ++ [name]) = some node)
      (noLink : ∀ target, node ≠ .link target) :
      Turns files location name rest (.onward (location ++ [name]))

theorem LastStep.ofSegment_eq_name {segment name : String}
    (same : LastStep.ofSegment segment = .name name) : segment = name := by
  unfold LastStep.ofSegment at same
  split at same <;> simp_all

theorem LastStep.ofSegment_eq_name_iff {name : String} :
    LastStep.ofSegment name = .name name ↔ name ≠ "" ∧ name ≠ "." ∧ name ≠ ".." := by
  unfold LastStep.ofSegment
  split <;> simp_all

variable {files : FileSystem} {location : Location} {name : String} {rest : List String}

theorem Turns.walkNames {turn : Turn} (turns : files.Turns location name rest turn)
    (follow : Bool → Bool) :
    files.walkNames follow location (name :: rest) =
      files.resume follow location name rest turn := by
  cases turns with
  | root blank isLast =>
    simp only [FileSystem.walkNames, blank, isLast, true_and, if_true, resume]
  | last proper isLast directory =>
    obtain ⟨modified, found⟩ := directory
    simp only [FileSystem.walkNames, proper, isLast, false_and, if_false, if_true, found]
    rfl
  | stay stays more directory =>
    obtain ⟨modified, found⟩ := directory
    simp only [FileSystem.walkNames, more, Bool.false_eq_true, and_false, if_false, found, stays,
      if_true, resume]
  | up parent more directory =>
    obtain ⟨modified, found⟩ := directory
    subst parent
    simp only [FileSystem.walkNames, more, Bool.false_eq_true, and_false, if_false, found]
    rfl
  | link ordinary short more directory entry =>
    obtain ⟨modified, found⟩ := directory
    obtain ⟨proper, notCurrent, notParent⟩ := LastStep.ofSegment_eq_name_iff.mp ordinary
    simp only [FileSystem.walkNames, more, Bool.false_eq_true, and_false, if_false, found, proper,
      notCurrent, or_self, notParent, Nat.not_lt.mpr short, entry, resume]
  | @down node ordinary short more directory entry noLink =>
    obtain ⟨modified, found⟩ := directory
    obtain ⟨proper, notCurrent, notParent⟩ := LastStep.ofSegment_eq_name_iff.mp ordinary
    simp only [FileSystem.walkNames, more, Bool.false_eq_true, and_false, if_false, found, proper,
      notCurrent, or_self, notParent, Nat.not_lt.mpr short, entry, resume]

/-- A name leads to a fault, whatever is made of links, or takes a turn. -/
theorem fault_or_turns (files : FileSystem) (location : Location) (name : String)
    (rest : List String) :
    (∃ fault, ∀ follow, files.walkNames follow location (name :: rest) = .fault fault) ∨
      ∃ turn, files.Turns location name rest turn := by
  by_cases root : name = "" ∧ rest.all (· = "") = true
  · exact .inr ⟨_, .root root.1 root.2⟩
  · simp only [FileSystem.walkNames, if_neg root]
    cases entry : files.node? location with
    | none => exact .inl ⟨_, fun _ => rfl⟩
    | some node =>
      cases node with
      | file contents modified => exact .inl ⟨_, fun _ => rfl⟩
      | link target => exact .inl ⟨_, fun _ => rfl⟩
      | directory modified =>
        have directory : files.HoldsDirectory location := ⟨modified, entry⟩
        cases more : rest.all (· = "") with
        | true => exact .inr ⟨_, .last (fun blank => root ⟨blank, more⟩) more directory⟩
        | false =>
          by_cases stays : name = "" ∨ name = "."
          · exact .inr ⟨_, .stay stays more directory⟩
          · by_cases parent : name = ".."
            · exact .inr ⟨_, .up parent more directory⟩
            · have ordinary : LastStep.ofSegment name = .name name :=
                LastStep.ofSegment_eq_name_iff.mpr
                  ⟨fun blank => stays (.inl blank), fun dot => stays (.inr dot), parent⟩
              by_cases long : nameLimit < name.utf8ByteSize
              · exact .inl ⟨.nameTooLong, fun _ => by simp [stays, parent, long]⟩
              · have short := Nat.not_lt.mp long
                cases next : files.node? (location ++ [name]) with
                | none => exact .inl ⟨.notFound, fun _ => by simp [stays, parent, long]⟩
                | some node =>
                  cases node with
                  | link target => exact .inr ⟨_, .link ordinary short more directory next⟩
                  | directory modified =>
                    exact .inr ⟨_, .down ordinary short more directory next nofun⟩
                  | file contents modified =>
                    exact .inr ⟨_, .down ordinary short more directory next nofun⟩

/-! ## Ways that follow links unless a slash stands behind them -/

/-- Where such a way stops: below directories, and at no link that a path without a slash ends
with. -/
def Stop.Checked (files : FileSystem) : Stop → Prop
  | .arrived place => place.slash = false →
      files.HoldsDirectory place.directory ∧ files.Reached place.directory ∧
        ∀ name target, place.last = .name name →
          files.node? (place.directory ++ [name]) ≠ some (.link target)
  | .link directory _ _ => files.HoldsDirectory directory ∧ files.Reached directory
  | .fault _ => True

private theorem checked_last (directory : files.HoldsDirectory location)
    (reached : files.Reached location) :
    (files.resume not location name rest .last).Checked files := by
  simp only [resume]
  split
  · rename_i target found
    split
    · exact ⟨directory, reached⟩
    · rename_i unfollowed
      intro slash
      simp_all
  · rename_i noLink
    intro _
    refine ⟨directory, reached, ?_⟩
    intro last target same found
    cases LastStep.ofSegment_eq_name same
    exact noLink target found

theorem walkNames_checked (files : FileSystem) (location : Location) (names : List String)
    (reached : files.Reached location) (empty : names = [] → files.HoldsDirectory location) :
    (files.walkNames not location names).Checked files := by
  induction names generalizing location with
  | nil =>
    intro _
    exact ⟨empty rfl, reached, fun name target last => by cases last⟩
  | cons name rest ih =>
    rcases files.fault_or_turns location name rest with ⟨fault, stops⟩ | ⟨turn, turns⟩
    · rw [stops]
      trivial
    · rw [turns.walkNames]
      have some (more : rest.all (· = "") = false) : rest ≠ [] := by
        rintro rfl
        cases more
      cases turns with
      | root blank isLast =>
        intro slash
        cases slash
      | last proper isLast directory => exact checked_last directory reached
      | stay stays more directory => exact ih location reached fun none => absurd none (some more)
      | up parent more directory =>
        exact ih location.dropLast (reached.of_prefix (List.dropLast_prefix _))
          fun none => absurd none (some more)
      | link ordinary short more directory entry => exact ⟨directory, reached⟩
      | down ordinary short more directory entry noLink =>
        exact ih _ (reached.append directory name) fun none => absurd none (some more)

private theorem walkLinks_checked (files : FileSystem) (links : Nat) (location : Location)
    (names : List String) (reached : files.Reached location)
    (empty : names = [] → files.HoldsDirectory location) {place : PathEnd}
    (walked : files.walkLinks not links location names = .ok place) :
    (Stop.arrived place).Checked files := by
  induction links generalizing location names with
  | zero =>
    have checked := walkNames_checked files location names reached empty
    unfold walkLinks at walked
    split at walked
    · rename_i arrived
      cases walked
      exact arrived ▸ checked
    · cases walked
    · cases walked
  | succ links ih =>
    have checked := walkNames_checked files location names reached empty
    unfold walkLinks at walked
    split at walked
    · rename_i arrived
      cases walked
      exact arrived ▸ checked
    · rename_i directory target rest stopped
      rw [stopped] at checked
      obtain ⟨here, above⟩ := checked
      refine ih _ _ ?_ ?_ walked
      · split
        · exact reached_root files
        · exact above
      · intro none
        have noNames := (List.append_eq_nil_iff.mp none).1
        split
        · exact above.holdsDirectory here List.nil_prefix
        · exact here
    · cases walked

private theorem namesOf_ne_nil {path : Path} (sound : textFault? path = none) :
    namesOf path ≠ [] := by
  obtain ⟨segments⟩ := path
  intro none
  rcases segments with _ | ⟨first, _ | ⟨second, rest⟩⟩
  · have empty : Path.text ⟨[]⟩ = "" := by decide
    simp [textFault?, empty] at sound
  · by_cases blank : first = "" <;> simp [namesOf, Path.isAbsolute] at none
  · by_cases blank : first = ""
    · subst blank
      simp [namesOf, Path.isAbsolute] at none
    · simp [namesOf, Path.isAbsolute, blank] at none

theorem walk_checked {files : FileSystem} {path : Path} {place : PathEnd}
    (walked : files.walk not path = .ok place) : (Stop.arrived place).Checked files := by
  unfold walk at walked
  split at walked
  · cases walked
  · rename_i sound
    exact walkLinks_checked files linkLimit [] (namesOf path) (reached_root files)
      (fun none => absurd none (namesOf_ne_nil sound)) walked

private theorem resume_last_follow
    (noSlash : ∀ place, files.resume not location name rest .last = .arrived place →
      place.slash = false) :
    files.resume (fun _ => true) location name rest .last =
      files.resume not location name rest .last := by
  simp only [resume] at noSlash ⊢
  cases next : files.node? (location ++ [name]) with
  | none => rfl
  | some node =>
    cases node with
    | directory modified => rfl
    | file contents modified => rfl
    | link target =>
      simp only [next] at noSlash ⊢
      cases slash : decide (rest ≠ []) with
      | false => rfl
      | true =>
        simp only [slash, Bool.not_true, Bool.false_eq_true, if_false] at noSlash
        exact absurd (noSlash _ rfl) Bool.noConfusion

private theorem walkNames_follow (location : Location) (names : List String)
    (noSlash : ∀ place, files.walkNames not location names = .arrived place → place.slash = false) :
    files.walkNames (fun _ => true) location names = files.walkNames not location names := by
  induction names generalizing location with
  | nil => rfl
  | cons name rest ih =>
    rcases files.fault_or_turns location name rest with ⟨fault, stops⟩ | ⟨turn, turns⟩
    · rw [stops, stops]
    · rw [turns.walkNames] at noSlash
      rw [turns.walkNames, turns.walkNames]
      cases turn with
      | stop stop => rfl
      | last => exact resume_last_follow noSlash
      | onward next => exact ih next noSlash

theorem walkLinks_follow {files : FileSystem} (links : Nat) (location : Location)
    (names : List String) {place : PathEnd} (noSlash : place.slash = false)
    (walked : files.walkLinks not links location names = .ok place) :
    files.walkLinks (fun _ => true) links location names = .ok place := by
  induction links generalizing location names with
  | zero =>
    unfold walkLinks at walked ⊢
    cases stop : files.walkNames not location names with
    | arrived reached =>
      simp only [stop, Except.ok.injEq] at walked
      subst walked
      rw [walkNames_follow location names (by simp [stop, noSlash]), stop]
    | link _ _ _ => simp [stop] at walked
    | fault _ => simp [stop] at walked
  | succ links ih =>
    unfold walkLinks at walked ⊢
    cases stop : files.walkNames not location names with
    | arrived reached =>
      simp only [stop, Except.ok.injEq] at walked
      subst walked
      rw [walkNames_follow location names (by simp [stop, noSlash]), stop]
    | link directory target rest =>
      simp only [stop] at walked
      rw [walkNames_follow location names (by simp [stop]), stop]
      exact ih _ _ walked
    | fault _ => simp [stop] at walked

end TextureCache.FileSystem
