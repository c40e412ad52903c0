import TextureCache.Path

/-! The steps of a path. A path to an entry of a directory has the steps of the directory and one
more, however the directory is spelled. -/
namespace TextureCache.Path

private theorem components_of_proper {first : String} (proper : first ≠ "") (noDot : first ≠ ".")
    (rest : List String) : components ⟨first :: rest⟩ = (first :: rest).filterMap componentOf := by
  unfold components
  split
  · rename_i same
    exact absurd (List.cons.inj same).1 proper
  · rename_i same
    exact absurd (List.cons.inj same).1 noDot
  · rfl

private theorem components_cons (first : String) {rest : List String} (more : rest ≠ []) :
    components ⟨first :: rest⟩ = components ⟨[first, ""]⟩ ++ rest.filterMap componentOf := by
  obtain ⟨second, others, rfl⟩ := List.exists_cons_of_ne_nil more
  by_cases root : first = ""
  · subst root
    rfl
  · by_cases dot : first = "."
    · subst dot
      rfl
    · rw [components_of_proper root dot, components_of_proper root dot]
      have blank : componentOf "" = none := rfl
      rw [← List.singleton_append, List.filterMap_append]
      simp only [List.filterMap_cons, blank]

theorem components_slash {segments : List String} (bare : segments.getLast? ≠ some "") :
    components ⟨segments ++ [""]⟩ = components ⟨segments⟩ := by
  have blank : [""].filterMap componentOf = [] := rfl
  match segments with
  | [] => rfl
  | [first] =>
    have proper : first ≠ "" := fun same => bare (by rw [same]; rfl)
    by_cases dot : first = "."
    · subst dot
      rfl
    · rw [List.singleton_append, components_of_proper proper dot, components_of_proper proper dot,
        ← List.singleton_append, List.filterMap_append, blank, List.append_nil]
  | first :: second :: rest =>
    rw [List.cons_append, components_cons first (by simp), List.filterMap_append, blank,
      List.append_nil, ← components_cons first (by simp)]

/-- A name that is a step of its own follows the steps of the directory. -/
theorem components_join (directory : Path) {name : String}
    (plain : componentOf name = some (.name name)) :
    (directory.join name).components = directory.components ++ [.name name] := by
  have blank : [""].filterMap componentOf = [] := rfl
  have concat (segments : List String) :
      components ⟨segments ++ [name]⟩ = components ⟨segments ++ [""]⟩ ++ [.name name] := by
    have last : [name].filterMap componentOf = [.name name] := by
      rw [List.filterMap_cons, plain]
      rfl
    cases segments with
    | nil =>
      have proper : name ≠ "" := by
        rintro rfl
        cases plain
      have noDot : name ≠ "." := by
        rintro rfl
        cases plain
      rw [List.nil_append, components_of_proper proper noDot, last]
      rfl
    | cons first rest =>
      rw [List.cons_append, List.cons_append, components_cons first (List.concat_ne_nil name rest),
        components_cons first (List.concat_ne_nil "" rest), List.filterMap_append,
        List.filterMap_append, last, blank, List.append_nil, List.append_assoc]
  obtain ⟨segments⟩ := directory
  unfold join
  split
  · rename_i slash
    obtain ⟨before, rfl⟩ := List.getLast?_eq_some_iff.mp slash
    rw [List.dropLast_concat]
    exact concat before
  · rename_i bare
    rw [← components_slash bare]
    exact concat segments

end TextureCache.Path
