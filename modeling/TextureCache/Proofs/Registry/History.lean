import Mathlib.Data.Finset.Card
import TextureCache.Proofs.Path
import TextureCache.Proofs.Registry

/-! A registry tells what was last done to it. For every name and every path one edit of the history
decides, the last one that is about it; the edits before it and those of other names and paths do
not count. Names count by their text and paths by their steps. -/
namespace TextureCache

/-- The last edit of a history that is about something. -/
def IsLast {Edit : Type} (About : Edit → Prop) (history : List Edit) (edit : Edit) : Prop :=
  ∃ before after, history = before ++ edit :: after ∧ About edit ∧ ∀ later ∈ after, ¬ About later

section IsLast
variable {Edit : Type} {About : Edit → Prop} {history : List Edit} {edit latest : Edit}

private theorem IsLast.about (last : IsLast About history edit) : About edit := by
  obtain ⟨_, _, _, about, _⟩ := last
  exact about

private theorem not_isLast_nil : ¬ IsLast About [] edit := by
  rintro ⟨before, after, split, _⟩
  exact List.cons_ne_nil edit after (List.append_eq_nil_iff.mp split.symm).2

/-- The latest edit comes in place of the last one so far, if it is about the same. -/
theorem isLast_concat_iff :
    IsLast About (history ++ [latest]) edit ↔
      About latest ∧ edit = latest ∨ ¬ About latest ∧ IsLast About history edit := by
  constructor
  · rintro ⟨before, after, split, about, others⟩
    rcases List.eq_nil_or_concat after with rfl | ⟨between, final, rfl⟩
    · obtain ⟨_, same⟩ := List.append_inj' split rfl
      cases same
      exact .inl ⟨about, rfl⟩
    · rw [List.concat_eq_append] at split others
      rw [← List.cons_append, ← List.append_assoc] at split
      obtain ⟨earlier, same⟩ := List.append_inj' split rfl
      cases same
      refine .inr ⟨others latest (List.mem_append_right _ List.mem_cons_self), before, between,
        earlier, about, ?_⟩
      exact fun later member => others later (List.mem_append_left _ member)
  · rintro (⟨about, rfl⟩ | ⟨other, before, after, rfl, about, others⟩)
    · exact ⟨history, [], rfl, about, nofun⟩
    · refine ⟨before, after ++ [latest], by simp, about, ?_⟩
      intro later member
      rcases List.mem_append.mp member with inside | final
      · exact others later inside
      · rwa [List.mem_singleton.mp final]

private theorem exists_isLast (About : Edit → Prop) (history : List Edit) :
    (∃ edit, IsLast About history edit) ∨ ∀ edit ∈ history, ¬ About edit := by
  induction history using List.reverseRecOn with
  | nil => exact .inr nofun
  | append_singleton history latest ih =>
    by_cases about : About latest
    · exact .inl ⟨latest, isLast_concat_iff.mpr (.inl ⟨about, rfl⟩)⟩
    · rcases ih with ⟨edit, last⟩ | never
      · exact .inl ⟨edit, isLast_concat_iff.mpr (.inr ⟨about, last⟩)⟩
      · refine .inr fun edit member => ?_
        rcases List.mem_append.mp member with inside | final
        · exact never edit inside
        · rwa [List.mem_singleton.mp final]

end IsLast

inductive RegistryEdit where
  | reserve (path : Path)
  | commit (path : Path) (time : Int)
  | rollback (path : Path)
  | forgetUnder (directory : Path)
  | associate (name : String) (handle : Handle)
  | release (handle : Handle)
  deriving DecidableEq, Repr

namespace RegistryEdit

def apply (registry : Registry) : RegistryEdit → Registry
  | reserve path => registry.reserve path
  | commit path time => registry.commit path time
  | rollback path => registry.rollback path
  | forgetUnder directory => registry.forgetUnder directory
  | associate name handle => registry.associate name handle
  | release handle => registry.release handle

/-- The change is one of write stamps and not of associations. -/
def isOfStamps : RegistryEdit → Bool
  | reserve _ | commit _ _ | rollback _ | forgetUnder _ => true
  | associate _ _ | release _ => false

/-- After the change it is certain which stamp a path has. -/
def Stamps (path : Path) : RegistryEdit → Prop
  | reserve own | commit own _ | rollback own => own.components = path.components
  | forgetUnder directory => path.startsWith directory = true
  | associate _ _ | release _ => False

/-- The stamp that is left where the change decides. -/
def stamp? : RegistryEdit → Option WriteStamp
  | reserve _ => some .pending
  | commit _ time => some (.committed time)
  | rollback _ | forgetUnder _ | associate _ _ | release _ => none

/-- The change links a name to some texture, or releases a texture to which it may be linked. -/
def Links (name : String) (handle : Handle) (edit : RegistryEdit) : Prop :=
  (∃ other, edit = associate name other) ∨ edit = release handle

end RegistryEdit

namespace Registry

open RegistryEdit

def ofHistory (history : List RegistryEdit) : Registry := history.foldl apply ∅

variable {history : List RegistryEdit} {name : String} {handle : Handle} {path : Path}

private theorem ofHistory_concat (history : List RegistryEdit) (edit : RegistryEdit) :
    ofHistory (history ++ [edit]) = apply (ofHistory history) edit := by
  rw [ofHistory, List.foldl_append]
  rfl

/-! ## Stamps -/

/-- A change that decides on a path leaves its own stamp, and any other one the stamp that was
there. -/
theorem stamp?_apply (registry : Registry) (path : Path) (edit : RegistryEdit)
    [Decidable (edit.Stamps path)] :
    (edit.apply registry).stamp? path =
      if edit.Stamps path then edit.stamp? else registry.stamp? path := by
  cases edit with
  | reserve own => exact (registry.stamp?_reserve own path).trans (if_congr eq_comm rfl rfl)
  | commit own time =>
    exact (registry.stamp?_commit own path time).trans (if_congr eq_comm rfl rfl)
  | rollback own => exact (registry.stamp?_rollback own path).trans (if_congr eq_comm rfl rfl)
  | forgetUnder directory =>
    exact (registry.stamp?_forgetUnder directory path).trans (if_congr Iff.rfl rfl rfl)
  | associate name handle | release handle => exact (if_neg not_false).symm

private theorem stamp?_of_isLast {edit : RegistryEdit} (last : IsLast (Stamps path) history edit) :
    (ofHistory history).stamp? path = edit.stamp? := by
  classical
  induction history using List.reverseRecOn with
  | nil => exact absurd last not_isLast_nil
  | append_singleton history latest ih =>
    rw [ofHistory_concat, stamp?_apply]
    rcases isLast_concat_iff.mp last with ⟨about, rfl⟩ | ⟨other, earlier⟩
    · rw [if_pos about]
    · rw [if_neg other, ih earlier]

private theorem stamp?_of_forall_not (never : ∀ edit ∈ history, ¬ edit.Stamps path) :
    (ofHistory history).stamp? path = none := by
  classical
  induction history using List.reverseRecOn with
  | nil => rfl
  | append_singleton history latest ih =>
    rw [ofHistory_concat, stamp?_apply,
      if_neg (never latest (List.mem_append_right _ List.mem_cons_self))]
    exact ih fun edit member => never edit (List.mem_append_left _ member)

private theorem stamp?_eq_some_iff {stamp : WriteStamp} :
    (ofHistory history).stamp? path = some stamp ↔
      ∃ edit, IsLast (Stamps path) history edit ∧ edit.stamp? = some stamp := by
  constructor
  · intro found
    rcases exists_isLast (Stamps path) history with ⟨edit, last⟩ | never
    · exact ⟨edit, last, (stamp?_of_isLast last).symm.trans found⟩
    · cases (stamp?_of_forall_not never).symm.trans found
  · rintro ⟨edit, last, left⟩
    rw [stamp?_of_isLast last, left]

private theorem stamp?_eq_pending_iff :
    (ofHistory history).stamp? path = some .pending ↔
      ∃ own, IsLast (Stamps path) history (.reserve own) := by
  rw [stamp?_eq_some_iff]
  constructor
  · rintro ⟨edit, last, left⟩
    cases edit <;> cases left
    exact ⟨_, last⟩
  · rintro ⟨own, last⟩
    exact ⟨_, last, rfl⟩

private theorem stamp?_eq_committed_iff {time : Int} :
    (ofHistory history).stamp? path = some (.committed time) ↔
      ∃ own, IsLast (Stamps path) history (.commit own time) := by
  rw [stamp?_eq_some_iff]
  constructor
  · rintro ⟨edit, last, left⟩
    cases edit <;> cases left
    exact ⟨_, last⟩
  · rintro ⟨own, last⟩
    exact ⟨_, last, rfl⟩

private theorem stamp?_eq_none_iff :
    (ofHistory history).stamp? path = none ↔
      (∃ own, IsLast (Stamps path) history (.rollback own)) ∨
      (∃ directory, IsLast (Stamps path) history (.forgetUnder directory)) ∨
      ∀ edit ∈ history, ¬ edit.Stamps path := by
  constructor
  · intro missing
    rcases exists_isLast (Stamps path) history with ⟨edit, last⟩ | never
    · have left := (stamp?_of_isLast last).symm.trans missing
      cases edit with
      | reserve own | commit own time => cases left
      | rollback own => exact .inl ⟨own, last⟩
      | forgetUnder directory => exact .inr (.inl ⟨directory, last⟩)
      | associate name handle | release handle => exact last.about.elim
    · exact .inr (.inr never)
  · rintro (⟨own, last⟩ | ⟨directory, last⟩ | never)
    · exact stamp?_of_isLast last
    · exact stamp?_of_isLast last
    · exact stamp?_of_forall_not never

/-- A directory with another name holds no path of the directory that is forgotten. -/
theorem not_startsWith_sibling {directory : Path} {first second : String}
    (plain : Path.componentOf first = some (.name first))
    (plain' : Path.componentOf second = some (.name second)) (different : first ≠ second)
    (inside : path.startsWith (directory.join second) = true) :
    ¬ path.startsWith (directory.join first) = true := by
  unfold Path.startsWith at inside ⊢
  rw [List.isPrefixOf_iff_prefix, Path.components_join directory plain'] at inside
  rw [List.isPrefixOf_iff_prefix, Path.components_join directory plain]
  intro under
  have nested := List.prefix_of_prefix_length_le under inside (by simp)
  have same := List.append_inj_right (nested.eq_of_length (by simp)) rfl
  exact different (by simpa using same)

/-! ## Associations -/

private theorem association?_apply_eq_some_iff {registry : Registry} {edit : RegistryEdit} :
    (edit.apply registry).association? name = some handle ↔
      edit = .associate name handle ∨
        ¬ edit.Links name handle ∧ registry.association? name = some handle := by
  unfold Links
  cases edit with
  | reserve own | commit own time | rollback own | forgetUnder directory =>
    exact ⟨fun linked => .inr ⟨by simp, linked⟩, fun linked => (linked.resolve_left nofun).2⟩
  | associate changed other =>
    have law : (apply registry (.associate changed other)).association? name = _ :=
      registry.association?_associate changed other name
    rw [law]
    by_cases same : name = changed
    · simp [same]
    · simp [same, Ne.symm same]
  | release released =>
    have law : (apply registry (.release released)).association? name = _ :=
      registry.association?_release released name
    rw [law, Option.filter_eq_some_iff, and_comm]
    by_cases same : handle = released
    · simp [same]
    · simp [same, Ne.symm same]

/-- A name is linked to a texture if that is the last link of the name, and the texture was not
released after it. -/
theorem association?_eq_some_iff :
    (ofHistory history).association? name = some handle ↔
      IsLast (Links name handle) history (.associate name handle) := by
  induction history using List.reverseRecOn with
  | nil => exact ⟨nofun, fun last => absurd last not_isLast_nil⟩
  | append_singleton history latest ih =>
    rw [ofHistory_concat, association?_apply_eq_some_iff, isLast_concat_iff, ih]
    have links : RegistryEdit.associate name handle = latest → latest.Links name handle :=
      fun same => .inl ⟨handle, same.symm⟩
    constructor
    · exact Or.imp_left fun same => ⟨links same.symm, same.symm⟩
    · exact Or.imp_left fun linked => linked.2.symm

theorem associationCount_eq_card (registry : Registry) :
    ∃ names : Finset String, registry.associationCount = names.card ∧
      ∀ name, name ∈ names ↔ ∃ handle, registry.association? name = some handle := by
  let entries := registry.associations.entries
  refine ⟨⟨entries.map Prod.fst, registry.associations.distinct⟩, ?_, ?_⟩
  · exact (List.length_map _).symm
  · intro name
    have keys : name ∈ entries.map Prod.fst ↔ ∃ handle, (name, handle) ∈ entries := by simp
    simp only [association?, Table.find?_eq_some_iff]
    exact keys

/-! ## Independence -/

/-- A part of the registry that every change makes from itself, and only certain changes alter, is
made by these alone. -/
theorem part_ofHistory {Part : Type} (part : Registry → Part) (own : RegistryEdit → Bool)
    (changed : ∀ (edit : RegistryEdit) first second, part first = part second →
      part (edit.apply first) = part (edit.apply second))
    (kept : ∀ edit registry, own edit = false → part (edit.apply registry) = part registry)
    (history : List RegistryEdit) :
    part (ofHistory history) = part (ofHistory (history.filter own)) := by
  induction history using List.reverseRecOn with
  | nil => rfl
  | append_singleton history latest ih =>
    rw [ofHistory_concat, List.filter_append]
    cases concerned : own latest with
    | true =>
      rw [List.filter_cons_of_pos concerned, List.filter_nil, ofHistory_concat]
      exact changed _ _ _ ih
    | false =>
      rw [List.filter_cons_of_neg (by simp [concerned]), List.filter_nil, List.append_nil,
        kept _ _ concerned, ih]

theorem stamps_ofHistory (history : List RegistryEdit) :
    (ofHistory history).stamps = (ofHistory (history.filter isOfStamps)).stamps := by
  apply part_ofHistory Registry.stamps
  · rintro edit ⟨stamps, _⟩ ⟨_, _⟩ rfl
    cases edit <;> rfl
  · intro edit registry other
    cases edit <;> first | rfl | cases other

theorem associations_ofHistory (history : List RegistryEdit) :
    (ofHistory history).associations =
      (ofHistory (history.filter (! ·.isOfStamps))).associations := by
  apply part_ofHistory Registry.associations
  · rintro edit ⟨_, associations⟩ ⟨_, _⟩ rfl
    cases edit <;> rfl
  · intro edit registry other
    cases edit <;> first | rfl | cases other

/-- The last change that is about a path or a name decides. A name is linked to a texture exactly if
the last link of the name is to that texture and no release of the texture came after it, and the
count is the number of such names. A path has the stamp that the last reservation, commit or
rollback of it left, however it was spelled, unless the stamps under a directory above it were
forgotten since. So the release of one texture leaves a name that another one has taken, forgetting
a directory leaves what is under another one beside it, and neither kind of change depends on what
was done of the other. -/
theorem determined_ofHistory (history : List RegistryEdit) :
    let registry := ofHistory history
    (∀ name handle, registry.association? name = some handle ↔
      IsLast (Links name handle) history (.associate name handle)) ∧
    (∃ names : Finset String, registry.associationCount = names.card ∧ ∀ name, name ∈ names ↔
      ∃ handle, IsLast (Links name handle) history (.associate name handle)) ∧
    (∀ path, registry.stamp? path = some .pending ↔
      ∃ own, IsLast (Stamps path) history (.reserve own)) ∧
    (∀ path time, registry.stamp? path = some (.committed time) ↔
      ∃ own, IsLast (Stamps path) history (.commit own time)) ∧
    (∀ path, registry.stamp? path = none ↔
      (∃ own, IsLast (Stamps path) history (.rollback own)) ∨
      (∃ directory, IsLast (Stamps path) history (.forgetUnder directory)) ∨
      ∀ edit ∈ history, ¬ edit.Stamps path) ∧
    (∀ name handle other, registry.association? name = some other → other ≠ handle →
      (registry.release handle).association? name = some other) ∧
    (∀ (directory path : Path) (first second : String),
      Path.componentOf first = some (.name first) →
      Path.componentOf second = some (.name second) → first ≠ second →
      path.startsWith (directory.join second) = true →
      (registry.forgetUnder (directory.join first)).stamp? path = registry.stamp? path) ∧
    registry.stamps = (ofHistory (history.filter isOfStamps)).stamps ∧
    registry.associations = (ofHistory (history.filter (! ·.isOfStamps))).associations := by
  intro registry
  refine ⟨fun _ _ => association?_eq_some_iff, ?_, fun _ => stamp?_eq_pending_iff,
    fun _ _ => stamp?_eq_committed_iff, fun _ => stamp?_eq_none_iff, ?_, ?_,
    stamps_ofHistory history, associations_ofHistory history⟩
  · obtain ⟨names, count, linked⟩ := registry.associationCount_eq_card
    refine ⟨names, count, fun name => (linked name).trans ?_⟩
    exact exists_congr fun handle => association?_eq_some_iff
  · intro name handle other linked different
    rw [association?_release, linked]
    exact Option.filter_some_pos (by simpa using different)
  · intro directory path first second plain plain' different inside
    rw [stamp?_forgetUnder]
    exact if_neg (not_startsWith_sibling plain plain' different inside)

/-- Forgetting one directory leaves the stamps of another one whose name begins alike. -/
example :
    let stamped := Path.ofText "dump/older/c.png"
    (ofHistory [.commit stamped 10, .forgetUnder (Path.ofText "dump/old")]).stamp? stamped =
      some (.committed 10) := by decide

end Registry
end TextureCache
