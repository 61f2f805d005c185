import Ritualist.Library.Table

/-!
# Mapping the values of a table

A map replaces every value and keeps the keys and their order. What an operation does
to a mapped table is the map of what it does to the table, if the change it makes
commutes with the map; so a program that walks tables commutes with it as well.
-/

universe u v w x

namespace Table

variable {α : Type u} {β : Type v} {γ : Type w} {δ : Type x}

/-- Map the values of entries. -/
def mapEntries (change : β → γ) (entries : List (Sigma fun _ : α => β)) :
    List (Sigma fun _ : α => γ) :=
  entries.map fun entry => ⟨entry.1, change entry.2⟩

@[simp] theorem map_entries_keys (change : β → γ) (entries : List (Sigma fun _ : α => β)) :
    (mapEntries change entries).keys = entries.keys := by
  simp [mapEntries, List.keys]

/-- Map the values of a table. -/
def map (change : β → γ) (table : Table α β) : Table α γ :=
  ⟨mapEntries change table.entries, by
    rw [List.NodupKeys, map_entries_keys]
    exact table.nodupKeys⟩

@[simp] theorem mem_map (change : β → γ) (table : Table α β) (key : α) :
    key ∈ map change table ↔ key ∈ table := by
  rw [AList.mem_keys, AList.mem_keys, AList.keys, AList.keys, map, map_entries_keys]

@[simp] theorem keys_map (change : β → γ) (table : Table α β) :
    (map change table).keys = table.keys :=
  map_entries_keys change table.entries

@[simp] theorem map_empty (change : β → γ) : map change (∅ : Table α β) = ∅ := rfl

/-- A walk of mapped entries maps what the walk of the entries keeps. -/
theorem revise_entries_map (change : β → γ) (first : α → β → Option β)
    (second : α → γ → Option γ)
    (commutes : ∀ key value, second key (change value) = (first key value).map change)
    (entries : List (Sigma fun _ : α => β)) :
    reviseEntries second (mapEntries change entries) =
      mapEntries change (reviseEntries first entries) := by
  induction entries with
  | nil => rfl
  | cons entry rest inductionHypothesis =>
    obtain ⟨key, value⟩ := entry
    have tail : reviseEntries second (rest.map fun entry => ⟨entry.1, change entry.2⟩) =
      mapEntries change (reviseEntries first rest) := inductionHypothesis
    cases kept : first key value with
    | none => simp [reviseEntries, mapEntries, commutes, kept, tail]
    | some result => simp [reviseEntries, mapEntries, commutes, kept, tail]

/-- A revision of a mapped table. -/
theorem revise_map (change : β → γ) (first : α → β → Option β) (second : α → γ → Option γ)
    (commutes : ∀ key value, second key (change value) = (first key value).map change)
    (table : Table α β) : revise second (map change table) = map change (revise first table) :=
  AList.ext (revise_entries_map change first second commutes table.entries)

/-- A visit of a mapped table maps the table and collects the same. -/
theorem visit_map (change : β → γ) (first : α → β → β × Option δ) (second : α → γ → γ × Option δ)
    (commutes : ∀ key value, second key (change value) =
      (change (first key value).1, (first key value).2)) (table : Table α β) :
    visit second (map change table) =
      (map change (visit first table).1, (visit first table).2) := by
  refine Prod.ext ?_ ?_
  · exact revise_map change _ _ (fun key value => by simp [commutes]) table
  · change (table.entries.map _).filterMap _ = _
    rw [List.filterMap_map]
    exact congrArg (List.filterMap · table.entries) (funext fun entry => by simp [commutes])

variable [DecidableEq α]

/-- The entry of a key in mapped entries. -/
theorem map_entries_lookup (change : β → γ) (entries : List (Sigma fun _ : α => β)) (key : α) :
    (mapEntries change entries).dlookup key = (entries.dlookup key).map change := by
  induction entries with
  | nil => rfl
  | cons entry rest inductionHypothesis =>
    obtain ⟨head, value⟩ := entry
    have tail : (rest.map fun entry => (⟨entry.1, change entry.2⟩ : Sigma fun _ : α => γ)).dlookup
      key = (rest.dlookup key).map change := inductionHypothesis
    by_cases same : key = head
    · subst same
      simp [mapEntries]
    · simpa [mapEntries, List.dlookup_cons_ne, same] using tail

/-- A mapped table, read at one key. -/
@[simp] theorem lookup_map (change : β → γ) (table : Table α β) (key : α) :
    (map change table).lookup key = (table.lookup key).map change :=
  map_entries_lookup change table.entries key

/-- Erasing a key of mapped entries. -/
theorem kerase_map_entries (change : β → γ) (entries : List (Sigma fun _ : α => β)) (key : α) :
    (mapEntries change entries).kerase key = mapEntries change (entries.kerase key) := by
  induction entries with
  | nil => rfl
  | cons entry rest inductionHypothesis =>
    obtain ⟨head, value⟩ := entry
    have tail : (rest.map fun entry => (⟨entry.1, change entry.2⟩ : Sigma fun _ : α => γ)).kerase
      key = mapEntries change (rest.kerase key) := inductionHypothesis
    by_cases same : key = head
    · subst same
      simp [mapEntries]
    · simp [mapEntries, List.kerase_cons_ne, same, tail]

/-- Erasing a key of a mapped table. -/
theorem erase_map (change : β → γ) (table : Table α β) (key : α) :
    (map change table).erase key = map change (table.erase key) :=
  AList.ext (kerase_map_entries change table.entries key)

/-- Inserting into a mapped table. -/
theorem insert_map (change : β → γ) (table : Table α β) (key : α) (value : β) :
    (map change table).insert key (change value) = map change (table.insert key value) := by
  apply AList.ext
  rw [AList.entries_insert]
  exact congrArg (List.cons _) (kerase_map_entries change table.entries key)

/-- A modification of a mapped table. -/
theorem modify_map (change : β → γ) (target : α) (first : β → β) (second : γ → γ)
    (commutes : ∀ value, second (change value) = change (first value)) (table : Table α β) :
    modify target second (map change table) = map change (modify target first table) := by
  apply revise_map
  intro key value
  by_cases same : key = target <;> simp [same, commutes]

end Table
