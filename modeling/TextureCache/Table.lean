/-! Finite maps that hold at most one value per key. The view of a table is its look-up
function `find?`; each operation has one law that says what it does to that view. -/
namespace TextureCache

/-- Keyed values, newest first; no key occurs twice. -/
structure Table (Key Value : Type) [DecidableEq Key] where
  entries : List (Key × Value)
  distinct : (entries.map Prod.fst).Nodup

namespace Table
variable {Key Value : Type} [DecidableEq Key]

def empty : Table Key Value := ⟨[], List.nodup_nil⟩

instance : EmptyCollection (Table Key Value) := ⟨empty⟩

def find? (table : Table Key Value) (key : Key) : Option Value := table.entries.lookup key

def size (table : Table Key Value) : Nat := table.entries.length

omit [DecidableEq Key] in
private theorem nodup_keys_filter {entries : List (Key × Value)} (keep : Key × Value → Bool)
    (distinct : (entries.map Prod.fst).Nodup) : ((entries.filter keep).map Prod.fst).Nodup :=
  List.Nodup.sublist (List.Sublist.map _ List.filter_sublist) distinct

def filter (table : Table Key Value) (keep : Key → Value → Bool) : Table Key Value :=
  ⟨table.entries.filter fun entry => keep entry.1 entry.2, nodup_keys_filter _ table.distinct⟩

def erase (table : Table Key Value) (key : Key) : Table Key Value :=
  table.filter fun stored _ => stored != key

private theorem not_mem_keys_erase (table : Table Key Value) (key : Key) :
    key ∉ (table.erase key).entries.map Prod.fst := by
  simp [erase, filter]

/-- Store a value under a key in place of any earlier one. -/
def insert (table : Table Key Value) (key : Key) (value : Value) : Table Key Value :=
  ⟨(key, value) :: (table.erase key).entries, by
    simp only [List.map_cons, List.nodup_cons]
    exact ⟨not_mem_keys_erase table key, (table.erase key).distinct⟩⟩

@[simp] theorem find?_empty (key : Key) : (∅ : Table Key Value).find? key = none := rfl

private theorem lookup_filter {entries : List (Key × Value)} (keep : Key → Value → Bool)
    (distinct : (entries.map Prod.fst).Nodup) (key : Key) :
    (entries.filter fun entry => keep entry.1 entry.2).lookup key =
      (entries.lookup key).filter (keep key) := by
  induction entries with
  | nil => rfl
  | cons head rest ih =>
    obtain ⟨stored, value⟩ := head
    simp only [List.map_cons, List.nodup_cons] at distinct
    by_cases same : key = stored
    · subst same
      have missing : rest.lookup key = none := by
        rw [List.lookup_eq_none_iff]
        intro entry member
        have different : key ≠ entry.1 := fun equal =>
          distinct.1 (equal ▸ List.mem_map_of_mem member)
        simpa using different
      cases kept : keep key value <;>
        simp [kept, Option.filter, ih distinct.2, missing]
    · have different : (key == stored) = false := by simpa using same
      cases kept : keep stored value <;>
        simp [kept, List.lookup_cons, different, ih distinct.2]

@[simp] theorem find?_filter (table : Table Key Value) (keep : Key → Value → Bool) (key : Key) :
    (table.filter keep).find? key = (table.find? key).filter (keep key) :=
  lookup_filter keep table.distinct key

@[simp] theorem find?_erase (table : Table Key Value) (erased key : Key) :
    (table.erase erased).find? key = if key = erased then none else table.find? key := by
  cases found : table.find? key <;> by_cases same : key = erased <;>
    simp_all [erase, Option.filter]

/-- Inserting under a key changes exactly that key. -/
@[simp] theorem find?_insert (table : Table Key Value) (changed : Key) (value : Value) (key : Key) :
    (table.insert changed value).find? key =
      if key = changed then some value else table.find? key := by
  by_cases same : key = changed
  · subst same; simp [insert, find?]
  · have different : (key == changed) = false := by simpa using same
    have rest := find?_erase table changed key
    simp only [same, if_false] at rest ⊢
    simpa [insert, find?, List.lookup_cons, different] using rest

theorem find?_eq_some_iff {table : Table Key Value} {key : Key} {value : Value} :
    table.find? key = some value ↔ (key, value) ∈ table.entries := by
  obtain ⟨entries, distinct⟩ := table
  simp only [find?]
  induction entries with
  | nil => simp
  | cons head rest ih =>
    obtain ⟨stored, held⟩ := head
    simp only [List.map_cons, List.nodup_cons] at distinct
    by_cases same : key = stored
    · subst same
      have absent : (key, value) ∉ rest := fun member =>
        distinct.1 (List.mem_map_of_mem (f := Prod.fst) member)
      simp [absent, eq_comm]
    · have different : (key == stored) = false := by simpa using same
      simp [List.lookup_cons, different, same, ih distinct.2]

end Table
end TextureCache
