import TextureCache.Registry

/-! What each operation does to the registry, read through its look-ups: one law for every operation
and every look-up that it changes. -/
namespace TextureCache.Registry

theorem stamp?_reserve (registry : Registry) (path other : Path) :
    (registry.reserve path).stamp? other =
      if other.components = path.components then some .pending else registry.stamp? other :=
  Table.find?_insert _ _ _ _

theorem stamp?_commit (registry : Registry) (path other : Path) (time : Int) :
    (registry.commit path time).stamp? other =
      if other.components = path.components then some (.committed time)
      else registry.stamp? other :=
  Table.find?_insert _ _ _ _

theorem stamp?_rollback (registry : Registry) (path other : Path) :
    (registry.rollback path).stamp? other =
      if other.components = path.components then none else registry.stamp? other :=
  Table.find?_erase _ _ _

theorem stamp?_settle (registry : Registry) (files : FileSystem) (path other : Path)
    (finished : Bool) :
    (registry.settle files path finished).stamp? other =
      if other.components = path.components then
        if finished then
          some (.committed ((files.modified? path).getD files.clock).unixSeconds)
        else none
      else registry.stamp? other := by
  unfold settle
  cases finished with
  | true => exact stamp?_commit _ _ _ _
  | false => exact stamp?_rollback _ _ _

theorem stamp?_forgetUnder (registry : Registry) (directory path : Path) :
    (registry.forgetUnder directory).stamp? path =
      if directory.components.isPrefixOf path.components then none else registry.stamp? path := by
  unfold stamp? forgetUnder
  rw [Table.find?_filter]
  by_cases under : directory.components.isPrefixOf path.components
  · rw [if_pos under]
    cases registry.stamps.find? path.components <;> simp [Option.filter, under]
  · rw [if_neg under]
    cases registry.stamps.find? path.components <;> simp [Option.filter, under]

theorem association?_settle (registry : Registry) (files : FileSystem) (path : Path)
    (finished : Bool) (name : String) :
    (registry.settle files path finished).association? name = registry.association? name := by
  cases finished <;> rfl

theorem association?_associate (registry : Registry) (changed : String) (handle : Handle)
    (name : String) :
    (registry.associate changed handle).association? name =
      if name = changed then some handle else registry.association? name :=
  Table.find?_insert _ _ _ _

theorem association?_release (registry : Registry) (handle : Handle) (name : String) :
    (registry.release handle).association? name =
      (registry.association? name).filter (· != handle) :=
  Table.find?_filter _ _ _

end TextureCache.Registry
