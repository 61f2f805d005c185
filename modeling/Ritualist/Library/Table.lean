import Mathlib.Data.List.AList

/-!
# Whole-table operations on association lists

Mathlib's `AList` is a finite map with its entries in some order, as a hash map
holds its buckets. Single-key operations and their lookup laws are Mathlib's.
A program also walks every entry in that order, replacing each value, dropping
some, or collecting results; `revise` and `visit` are these walks. Each is fully
described by what it does at one key, and by nothing else: no lookup depends on
the order, and no entry on another.
-/

universe u v w x

/-- A finite map from keys to values of one type. -/
abbrev Table (α : Type u) (β : Type v) := AList (fun _ : α => β)

namespace Table

variable {α : Type u} {β : Type v} {γ : Type w}

/-- Walk the entries, replacing each value or dropping its entry. -/
def reviseEntries (change : α → β → Option β) :
    List (Sigma fun _ : α => β) → List (Sigma fun _ : α => β)
  | [] => []
  | ⟨key, value⟩ :: rest =>
    match change key value with
    | some changed => ⟨key, changed⟩ :: reviseEntries change rest
    | none => reviseEntries change rest

/-- The walk keeps a sublist of the keys, in their order. -/
theorem revise_entries_keys (change : α → β → Option β)
    (entries : List (Sigma fun _ : α => β)) :
    (reviseEntries change entries).keys.Sublist entries.keys := by
  induction entries with
  | nil => exact List.Sublist.refl _
  | cons entry rest inductionHypothesis =>
    obtain ⟨key, value⟩ := entry
    cases changed : change key value with
    | some result => simpa [reviseEntries, changed] using inductionHypothesis
    | none => simpa [reviseEntries, changed] using inductionHypothesis.cons key

/-- Changes that agree on the entries walk them alike. -/
theorem revise_entries_congr (change other : α → β → Option β)
    (entries : List (Sigma fun _ : α => β))
    (agree : ∀ entry ∈ entries, change entry.1 entry.2 = other entry.1 entry.2) :
    reviseEntries change entries = reviseEntries other entries := by
  induction entries with
  | nil => rfl
  | cons entry rest inductionHypothesis =>
    obtain ⟨key, value⟩ := entry
    obtain ⟨head, tail⟩ := List.forall_mem_cons.mp agree
    have same : change key value = other key value := head
    simp only [reviseEntries, same, inductionHypothesis tail]

/-- Two walks, one after the other, are one walk. -/
theorem revise_entries_twice (first second : α → β → Option β)
    (entries : List (Sigma fun _ : α => β)) :
    reviseEntries second (reviseEntries first entries) =
      reviseEntries (fun key value => (first key value).bind (second key)) entries := by
  induction entries with
  | nil => rfl
  | cons entry rest inductionHypothesis =>
    obtain ⟨key, value⟩ := entry
    cases changed : first key value with
    | none => simp [reviseEntries, changed, inductionHypothesis]
    | some result => simp [reviseEntries, changed, inductionHypothesis]

/-- Replace or drop every entry of a table. -/
def revise (change : α → β → Option β) (table : Table α β) : Table α β :=
  ⟨reviseEntries change table.entries,
    (revise_entries_keys change table.entries).nodup table.nodupKeys⟩

/-- Revising twice is revising once. -/
theorem revise_twice (first second : α → β → Option β) (table : Table α β) :
    revise second (revise first table) =
      revise (fun key value => (first key value).bind (second key)) table :=
  AList.ext (revise_entries_twice first second table.entries)

/-- What a walk collects from entries that yield their own keys, if anything, is a
sublist of the keys. -/
theorem own_keys_sublist (step : α → β → β × Option α) (entries : List (Sigma fun _ : α => β))
    (own : ∀ entry ∈ entries, ∀ result, (step entry.1 entry.2).2 = some result →
      result = entry.1) :
    (entries.filterMap fun entry => (step entry.1 entry.2).2).Sublist entries.keys := by
  induction entries with
  | nil => exact List.Sublist.refl _
  | cons entry rest inductionHypothesis =>
    obtain ⟨here, later⟩ := List.forall_mem_cons.mp own
    have tail := inductionHypothesis later
    cases yielded : (step entry.1 entry.2).2 with
    | none => simpa [yielded] using tail.cons entry.1
    | some result =>
      obtain rfl := here result yielded
      simpa [yielded] using tail

/-! ### Walks that may fail -/

variable {ε : Type x}

/-- Walk the entries as `reviseEntries` does, failing at the first change that fails. -/
def tryReviseEntries (change : α → β → Except ε (Option β)) :
    List (Sigma fun _ : α => β) → Except ε (List (Sigma fun _ : α => β))
  | [] => .ok []
  | ⟨key, value⟩ :: rest =>
    match change key value, tryReviseEntries change rest with
    | .error error, _ => .error error
    | .ok _, .error error => .error error
    | .ok (some changed), .ok revised => .ok (⟨key, changed⟩ :: revised)
    | .ok none, .ok revised => .ok revised

/-- A walk that does not fail keeps a sublist of the keys, in their order. -/
theorem try_revise_entries_keys (change : α → β → Except ε (Option β))
    (entries revised : List (Sigma fun _ : α => β))
    (succeeds : tryReviseEntries change entries = .ok revised) :
    revised.keys.Sublist entries.keys := by
  induction entries generalizing revised with
  | nil =>
    obtain rfl := Except.ok.inj succeeds
    exact List.Sublist.refl _
  | cons entry rest inductionHypothesis =>
    obtain ⟨key, value⟩ := entry
    rw [tryReviseEntries] at succeeds
    split at succeeds
    case h_1 => cases succeeds
    case h_2 => cases succeeds
    case h_3 changed tail _ walked =>
      obtain rfl := Except.ok.inj succeeds
      simpa using inductionHypothesis tail walked
    case h_4 tail _ walked =>
      obtain rfl := Except.ok.inj succeeds
      simpa using (inductionHypothesis tail walked).cons key

/-- A walk whose changes do not fail is the walk with their results. -/
theorem try_revise_entries_ok (change : α → β → Except ε (Option β)) (total : α → β → Option β)
    (entries : List (Sigma fun _ : α => β))
    (agree : ∀ entry ∈ entries, change entry.1 entry.2 = .ok (total entry.1 entry.2)) :
    tryReviseEntries change entries = .ok (reviseEntries total entries) := by
  induction entries with
  | nil => rfl
  | cons entry rest inductionHypothesis =>
    obtain ⟨key, value⟩ := entry
    obtain ⟨here, later⟩ := List.forall_mem_cons.mp agree
    have same : change key value = .ok (total key value) := here
    rw [tryReviseEntries, reviseEntries, same, inductionHypothesis later]
    cases total key value <;> rfl

/-- A walk that does not fail did what its changes do where they do not fail. -/
theorem try_revise_entries_sound (change : α → β → Except ε (Option β)) (total : α → β → Option β)
    (sound : ∀ key value result, change key value = .ok result → result = total key value)
    (entries revised : List (Sigma fun _ : α => β))
    (succeeds : tryReviseEntries change entries = .ok revised) :
    revised = reviseEntries total entries := by
  induction entries generalizing revised with
  | nil => exact (Except.ok.inj succeeds).symm
  | cons entry rest inductionHypothesis =>
    obtain ⟨key, value⟩ := entry
    rw [tryReviseEntries] at succeeds
    rw [reviseEntries]
    split at succeeds
    case h_1 => cases succeeds
    case h_2 => cases succeeds
    case h_3 changed tail replaced walked =>
      rw [← sound key value _ replaced, ← inductionHypothesis tail walked]
      exact (Except.ok.inj succeeds).symm
    case h_4 tail dropped walked =>
      rw [← sound key value _ dropped, ← inductionHypothesis tail walked]
      exact (Except.ok.inj succeeds).symm

/-- Replace or drop every entry of a table, failing at the first change that fails. -/
def tryRevise (change : α → β → Except ε (Option β)) (table : Table α β) :
    Except ε (Table α β) :=
  match walked : tryReviseEntries change table.entries with
  | .error error => .error error
  | .ok revised =>
    .ok ⟨revised, (try_revise_entries_keys change table.entries revised walked).nodup
      table.nodupKeys⟩

/-- A revision whose changes do not fail is the revision with their results. -/
theorem try_revise_ok (change : α → β → Except ε (Option β)) (total : α → β → Option β)
    (table : Table α β)
    (agree : ∀ entry ∈ table.entries, change entry.1 entry.2 = .ok (total entry.1 entry.2)) :
    tryRevise change table = .ok (revise total table) := by
  have walked := try_revise_entries_ok change total table.entries agree
  unfold tryRevise
  split
  case h_1 error failed => simp [walked] at failed
  case h_2 revised succeeded =>
    rw [walked] at succeeded
    obtain rfl := Except.ok.inj succeeded
    rfl

/-- A revision that does not fail is the revision with the changes' results. -/
theorem try_revise_sound (change : α → β → Except ε (Option β)) (total : α → β → Option β)
    (sound : ∀ key value result, change key value = .ok result → result = total key value)
    (table revised : Table α β) (succeeds : tryRevise change table = .ok revised) :
    revised = revise total table := by
  unfold tryRevise at succeeds
  split at succeeds
  case h_1 => cases succeeds
  case h_2 entries walked =>
    obtain rfl := Except.ok.inj succeeds
    exact AList.ext (try_revise_entries_sound change total sound table.entries entries walked)

variable [DecidableEq α]

/-- A key absent from the entries is absent after the walk. -/
theorem revise_entries_absent (change : α → β → Option β)
    (entries : List (Sigma fun _ : α => β)) (key : α) (absent : key ∉ entries.keys) :
    (reviseEntries change entries).dlookup key = none :=
  List.dlookup_eq_none.mpr fun present =>
    absent ((revise_entries_keys change entries).subset present)

/-- The entry of a key after the walk is its changed value, if it had one and
the change kept it. Distinct keys make the first occurrence the only one. -/
theorem revise_entries_lookup (change : α → β → Option β)
    (entries : List (Sigma fun _ : α => β)) (distinct : entries.NodupKeys) (key : α) :
    (reviseEntries change entries).dlookup key = (entries.dlookup key).bind (change key) := by
  induction entries with
  | nil => rfl
  | cons entry rest inductionHypothesis =>
    obtain ⟨head, value⟩ := entry
    obtain ⟨headAbsent, restDistinct⟩ := List.nodupKeys_cons.mp distinct
    have tail := inductionHypothesis restDistinct
    by_cases same : key = head
    · subst same
      cases changed : change key value with
      | some result => simp [reviseEntries, changed]
      | none =>
        simpa [reviseEntries, changed] using revise_entries_absent change rest key headAbsent
    · cases changed : change head value with
      | some result => simpa [reviseEntries, changed, List.dlookup_cons_ne, same] using tail
      | none => simpa [reviseEntries, changed, List.dlookup_cons_ne, same] using tail

/-- A table revised at every entry, read at one key. -/
@[simp] theorem lookup_revise (change : α → β → Option β) (table : Table α β) (key : α) :
    (revise change table).lookup key = (table.lookup key).bind (change key) :=
  revise_entries_lookup change table.entries table.nodupKeys key

/-- Changes that agree on the values present revise a table alike. -/
theorem revise_congr (change other : α → β → Option β) (table : Table α β)
    (agree : ∀ key value, table.lookup key = some value → change key value = other key value) :
    revise change table = revise other table := by
  apply AList.ext
  apply revise_entries_congr
  rintro ⟨key, value⟩ member
  exact agree key value (AList.mem_lookup_iff.mpr member)

/-- Replace the value of one key, when it is present. -/
def modify (target : α) (change : β → β) (table : Table α β) : Table α β :=
  revise (fun key value => some (if key = target then change value else value)) table

/-- A modified table, read at one key. -/
@[simp] theorem lookup_modify (target : α) (change : β → β) (table : Table α β) (key : α) :
    (modify target change table).lookup key =
      if key = target then (table.lookup key).map change else table.lookup key := by
  rw [modify, lookup_revise]
  by_cases same : key = target <;> cases table.lookup key <;> simp [same]

/-- Two replacements that agree on the value present give the same table. -/
theorem modify_congr (target : α) (change other : β → β) (table : Table α β)
    (agree : ∀ value, table.lookup target = some value → change value = other value) :
    modify target change table = modify target other table := by
  apply revise_congr
  intro key value present
  by_cases same : key = target
  · subst same
    simp [agree value present]
  · simp [same]

/-- Walk the entries, replacing each value and collecting what the walk yields,
both in the table's order. -/
def visit (step : α → β → β × Option γ) (table : Table α β) : Table α β × List γ :=
  (revise (fun key value => some (step key value).1) table,
    table.entries.filterMap fun entry => (step entry.1 entry.2).2)

/-- A visited table, read at one key. -/
@[simp] theorem lookup_visit (step : α → β → β × Option γ) (table : Table α β) (key : α) :
    (visit step table).1.lookup key = (table.lookup key).map fun value => (step key value).1 := by
  rw [visit, lookup_revise]
  cases table.lookup key <;> rfl

/-- A result is collected exactly when some present entry yields it. -/
theorem mem_visit (step : α → β → β × Option γ) (table : Table α β) (result : γ) :
    result ∈ (visit step table).2 ↔
      ∃ key value, table.lookup key = some value ∧ (step key value).2 = some result := by
  simp only [visit, List.mem_filterMap]
  constructor
  · rintro ⟨⟨key, value⟩, present, yielded⟩
    exact ⟨key, value, AList.mem_lookup_iff.mpr present, yielded⟩
  · rintro ⟨key, value, present, yielded⟩
    exact ⟨⟨key, value⟩, AList.mem_lookup_iff.mp present, yielded⟩

/-- A walk that collects own keys collects none of them twice. -/
theorem visit_nodup (step : α → β → β × Option α) (table : Table α β)
    (own : ∀ key value result, table.lookup key = some value →
      (step key value).2 = some result → result = key) :
    (visit step table).2.Nodup := by
  apply (own_keys_sublist step table.entries _).nodup table.nodupKeys
  intro entry member result yielded
  exact own entry.1 entry.2 result (AList.mem_lookup_iff.mpr member) yielded

end Table
