/-!
# Catalogs

A catalog holds entries under names, in the order in which the names first came. Writing an entry
under a name that is there already keeps its place. The lemmas say what a look-up finds after each
operation, and that writing keeps names apart.
-/

namespace SourceCanvas

/-- Entries under names, in the order in which the names first came. -/
abbrev Catalog (α : Type) := List (String × α)

namespace Catalog

variable {α β : Type}

/-- The names, in order. -/
def names (entries : Catalog α) : List String := List.map Prod.fst entries

/-- The first entry under a name. -/
def get? (entries : Catalog α) (name : String) : Option α := List.lookup name entries

/-- Whether there is an entry under a name. -/
def has (entries : Catalog α) (name : String) : Bool := (entries.get? name).isSome

/-- Writes an entry: in the place of the one under that name, or last. -/
def insert (name : String) (value : α) : Catalog α → Catalog α
  | [] => [(name, value)]
  | entry :: rest =>
    if entry.1 = name then (name, value) :: rest else entry :: insert name value rest

/-- The catalog without the entries under a name. -/
def erase (entries : Catalog α) (name : String) : Catalog α :=
  List.filter (fun entry => entry.1 ≠ name) entries

/-- Writes the entries of a list one after the other. -/
def ofList (entries : List (String × α)) : Catalog α :=
  entries.foldl (fun catalog entry => insert entry.1 entry.2 catalog) []

/-- Writes all entries of a second catalog into a first one. -/
def union (entries later : Catalog α) : Catalog α :=
  List.foldl (fun catalog entry => insert entry.1 entry.2 catalog) entries later

/-- Adds a value to the list under a name. -/
def gather (entries : Catalog (List α)) (name : String) (value : α) : Catalog (List α) :=
  insert name ((entries.get? name).getD [] ++ [value]) entries

@[simp] theorem get?_nil (name : String) : get? ([] : Catalog α) name = none := rfl

theorem get?_cons (entry : String × α) (rest : Catalog α) (name : String) :
    get? (entry :: rest) name = if entry.1 = name then some entry.2 else get? rest name := by
  obtain ⟨key, value⟩ := entry
  simp only [get?, List.lookup_cons]
  by_cases same : key = name
  · simp [same]
  · have apart : (name == key) = false := by simpa using fun h => same h.symm
    simp [same, apart]

@[simp] theorem get?_insert_self (name : String) (value : α) (entries : Catalog α) :
    (insert name value entries).get? name = some value := by
  induction entries with
  | nil => simp [insert, get?_cons]
  | cons entry rest ih =>
    rw [insert]
    split
    · simp [get?_cons]
    · next apart => rw [get?_cons, if_neg apart, ih]

theorem get?_insert_ne {name other : String} (apart : other ≠ name) (value : α)
    (entries : Catalog α) : (insert name value entries).get? other = entries.get? other := by
  induction entries with
  | nil => simp [insert, get?_cons, Ne.symm apart]
  | cons entry rest ih =>
    rw [insert]
    split
    · next same => simp [get?_cons, same, Ne.symm apart]
    · rw [get?_cons, get?_cons, ih]

theorem get?_isSome_iff {name : String} {entries : Catalog α} :
    (entries.get? name).isSome ↔ name ∈ entries.names := by
  induction entries with
  | nil => simp [names]
  | cons entry rest ih =>
    rw [get?_cons, names, List.map_cons, List.mem_cons, ← names, ← ih]
    by_cases same : entry.1 = name
    · simp [same]
    · simp [same, Ne.symm same]

/-- Writing under a known name keeps the names, under a new one it adds it last. -/
theorem names_insert (name : String) (value : α) (entries : Catalog α) :
    (insert name value entries).names =
      if name ∈ entries.names then entries.names else entries.names ++ [name] := by
  induction entries with
  | nil => simp [insert, names]
  | cons entry rest ih =>
    rw [insert]
    by_cases same : entry.1 = name
    · simp [same, names]
    · simp only [names] at ih
      by_cases known : name ∈ List.map Prod.fst rest
      · simp [if_neg same, names, ih, known]
      · simp [if_neg same, names, ih, known, Ne.symm same]

/-- What is written under a new name comes last. -/
theorem insert_of_fresh {entries : Catalog α} {name : String} (value : α)
    (fresh : name ∉ entries.names) : insert name value entries = entries ++ [(name, value)] := by
  induction entries with
  | nil => rfl
  | cons entry rest ih =>
    have different : entry.1 ≠ name := fun same => fresh (same ▸ List.mem_cons_self ..)
    rw [insert, if_neg different, ih fun known => fresh (List.mem_cons_of_mem _ known)]
    rfl

/-- Writing keeps names apart. -/
theorem nodup_names_insert {name : String} {value : α} {entries : Catalog α}
    (apart : entries.names.Nodup) : (insert name value entries).names.Nodup := by
  rw [names_insert]
  split
  · exact apart
  · next fresh => simpa [List.nodup_append] using ⟨apart, fun a ha h => fresh (h ▸ ha)⟩

/-- An entry is one that was there, or the one that was written. -/
theorem mem_of_insert {value : α} {entry : String × α}
    (member : entry ∈ insert name value entries) : entry ∈ entries ∨ entry = (name, value) := by
  induction entries with
  | nil => exact .inr (List.mem_singleton.mp member)
  | cons first rest ih =>
    rw [insert] at member
    split at member
    · rcases List.mem_cons.mp member with rfl | behind
      · exact .inr rfl
      · exact .inl (List.mem_cons_of_mem _ behind)
    · rcases List.mem_cons.mp member with rfl | behind
      · exact .inl (List.mem_cons_self ..)
      · exact (ih behind).imp_left (List.mem_cons_of_mem _)

theorem get?_insert (name : String) (value : α) (entries : Catalog α) (other : String) :
    (insert name value entries).get? other =
      if other = name then some value else entries.get? other := by
  split
  · next same =>
    subst same
    exact get?_insert_self _ value entries
  · next apart => exact get?_insert_ne apart value entries

/-- What is found after writing is what was written, or it was there before. -/
theorem get?_of_insert {name other : String} {value found : α} {entries : Catalog α}
    (written : (insert name value entries).get? other = some found) :
    other = name ∧ found = value ∨ other ≠ name ∧ entries.get? other = some found := by
  rw [get?_insert] at written
  split at written
  · next same =>
    cases written
    exact .inl ⟨same, rfl⟩
  · next different => exact .inr ⟨different, written⟩

theorem mem_of_get? {entries : Catalog α} {name : String} {value : α}
    (found : entries.get? name = some value) : (name, value) ∈ entries := by
  induction entries with
  | nil => cases found
  | cons entry rest ih =>
    rw [get?_cons] at found
    split at found
    · next same =>
      cases found
      subst same
      exact List.mem_cons_self ..
    · exact List.mem_cons_of_mem _ (ih found)

/-- What stands under a name that is not given twice is found. -/
theorem get?_of_mem {entries : Catalog α} {name : String} {value : α}
    (apart : entries.names.Nodup) (member : (name, value) ∈ entries) :
    entries.get? name = some value := by
  induction entries with
  | nil => cases member
  | cons entry rest ih =>
    obtain ⟨fresh, apart⟩ := List.nodup_cons.mp apart
    rw [get?_cons]
    rcases List.mem_cons.mp member with rfl | inside
    · exact if_pos rfl
    · rw [if_neg, ih apart inside]
      rintro rfl
      exact fresh (List.mem_map.mpr ⟨_, inside, rfl⟩)

/-- Keeping the entries under some names. -/
theorem get?_filter (keep : String → Bool) (entries : Catalog α) (name : String) :
    get? (List.filter (fun entry => keep entry.1) entries) name =
      if keep name then entries.get? name else none := by
  induction entries with
  | nil => simp [get?]
  | cons entry rest ih =>
    rw [List.filter_cons, get?_cons]
    by_cases same : entry.1 = name
    · subst same
      by_cases kept : keep entry.1 = true
      · simp [kept, get?_cons]
      · simp [kept, ih]
    · by_cases kept : keep entry.1 = true
      · simp [kept, get?_cons, same, ih]
      · simp [kept, same, ih]

theorem get?_erase (entries : Catalog α) (name other : String) :
    (entries.erase name).get? other = if other = name then none else entries.get? other := by
  have filtered := get?_filter (fun key => decide (key ≠ name)) entries other
  by_cases same : other = name
  · simpa [erase, same] using filtered
  · simpa [erase, same] using filtered

theorem get?_of_erase {entries : Catalog α} {name other : String} {value : α}
    (found : (entries.erase name).get? other = some value) :
    other ≠ name ∧ entries.get? other = some value := by
  rw [get?_erase] at found
  split at found
  · cases found
  · next different => exact ⟨different, found⟩

theorem get?_erase_ne (entries : Catalog α) {name other : String} (different : other ≠ name) :
    (entries.erase name).get? other = entries.get? other := by
  rw [get?_erase, if_neg different]

theorem get?_append (entries later : Catalog α) (name : String) :
    get? (entries ++ later) name = (entries.get? name).or (later.get? name) := List.lookup_append

/-- What is found after writing entries one after the other: the last one under a name, or else what
was there. -/
theorem get?_union (entries later : Catalog α) (name : String) :
    (entries.union later).get? name = (get? later.reverse name).or (entries.get? name) := by
  rw [union]
  induction later generalizing entries with
  | nil => simp
  | cons entry rest ih =>
    have single : get? [entry] name = if entry.1 = name then some entry.2 else none :=
      get?_cons entry [] name
    rw [List.foldl_cons, ih, get?_insert, List.reverse_cons, get?_append, single, Option.or_assoc]
    by_cases same : entry.1 = name
    · simp [same]
    · simp [same, Ne.symm same]

theorem get?_ofList (entries : List (String × α)) (name : String) :
    (ofList entries).get? name = get? entries.reverse name := by
  have written := get?_union [] entries name
  rwa [get?_nil, Option.or_none] at written

/-- Every entry is one of those that were written. -/
theorem mem_of_ofList {entries : List (String × α)} {entry : String × α}
    (member : entry ∈ ofList entries) : entry ∈ entries := by
  have step (later : List (String × α)) (found : Catalog α)
      (member : entry ∈ later.foldl (fun catalog entry => insert entry.1 entry.2 catalog) found) :
      entry ∈ found ∨ entry ∈ later := by
    induction later generalizing found with
    | nil => exact .inl member
    | cons first rest ih =>
      rcases ih _ member with before | behind
      · rcases mem_of_insert before with old | rfl
        · exact .inl old
        · exact .inr (List.mem_cons_self ..)
      · exact .inr (List.mem_cons_of_mem _ behind)
  exact (step entries [] member).resolve_left List.not_mem_nil

/-- Names are apart once the entries of a list are written. -/
theorem nodup_names_ofList (entries : List (String × α)) : (ofList entries).names.Nodup := by
  have step (found : Catalog α) (apart : found.names.Nodup) :
      names (entries.foldl (fun catalog entry => insert entry.1 entry.2 catalog) found)
        |>.Nodup := by
    induction entries generalizing found with
    | nil => exact apart
    | cons entry rest ih => exact ih _ (nodup_names_insert apart)
  exact step [] List.nodup_nil

/-- Entries under names that are apart are written one behind the other. -/
theorem ofList_of_nodup {entries : List (String × α)} (apart : (names entries).Nodup) :
    ofList entries = entries := by
  have step (found later : List (String × α)) (apart : (names (found ++ later)).Nodup) :
      later.foldl (fun catalog entry => insert entry.1 entry.2 catalog) found =
        found ++ later := by
    induction later generalizing found with
    | nil => exact (List.append_nil found).symm
    | cons entry later ih =>
      have fresh : entry.1 ∉ names found := by
        rw [names, List.map_append, List.map_cons] at apart
        exact fun known => (List.nodup_append.mp apart).2.2 _ known _ (List.mem_cons_self ..) rfl
      have parts : found ++ entry :: later = found ++ [entry] ++ later := by simp
      rw [List.foldl_cons, insert_of_fresh entry.2 fresh, parts]
      exact ih _ (parts ▸ apart)
  exact step [] entries apart

end Catalog

end SourceCanvas
