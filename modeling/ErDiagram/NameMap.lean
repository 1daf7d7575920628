/-! Values kept under names, in the order in which the names were first inserted. -/

namespace ErDiagram

/-- A map from names that remembers the order of insertion. No name occurs twice. -/
structure NameMap (α : Type) where
  entries : List (String × α)
  nodup : (entries.map Prod.fst).Nodup

namespace NameMap

variable {α β : Type}

/-- The names in the order of their insertion. -/
def keys (m : NameMap α) : List String :=
  m.entries.map Prod.fst

theorem nodup_keys (m : NameMap α) : m.keys.Nodup := m.nodup

def empty : NameMap α := ⟨[], List.nodup_nil⟩

/-- The value under a name. -/
def get? (m : NameMap α) (name : String) : Option α :=
  m.entries.lookup name

/-- Puts a value under a name that has an entry; the name keeps its place. -/
def replace (name : String) (a : α) (entries : List (String × α)) : List (String × α) :=
  entries.map fun entry => if entry.1 = name then (name, a) else entry

theorem keys_replace (name : String) (a : α) (entries : List (String × α)) :
    (replace name a entries).map Prod.fst = entries.map Prod.fst := by
  simp only [replace, List.map_map]
  refine List.map_congr_left fun entry _ => ?_
  simp only [Function.comp_apply]
  split <;> simp_all

/-- Puts a value under a name. A new name comes last; an old one keeps its place. -/
def insert (m : NameMap α) (name : String) (a : α) : NameMap α :=
  if hName : name ∈ m.keys then
    ⟨replace name a m.entries, by rw [keys_replace]; exact m.nodup⟩
  else
    ⟨m.entries ++ [(name, a)], by
      simp only [List.map_append, List.map_cons, List.map_nil]
      refine List.nodup_append.2 ⟨m.nodup, by simp, fun x hx y hy => ?_⟩
      simp only [List.mem_cons, List.not_mem_nil, or_false] at hy
      exact fun hxy => hName (hy ▸ hxy ▸ hx)⟩

/-- Inserts the pairs one after another, so a later value replaces an earlier one. -/
def ofList (pairs : List (String × α)) : NameMap α :=
  pairs.foldl (fun m pair => m.insert pair.1 pair.2) empty

/-- Changes each value, given its name. -/
def mapValues (f : String → α → β) (m : NameMap α) : NameMap β :=
  ⟨m.entries.map fun entry => (entry.1, f entry.1 entry.2), by
    have hKeys : (m.entries.map fun entry => (entry.1, f entry.1 entry.2)).map Prod.fst =
        m.entries.map Prod.fst := by simp [Function.comp_def]
    rw [hKeys]
    exact m.nodup⟩

/-- The number of names. -/
def size (m : NameMap α) : Nat :=
  m.entries.length

/-! ### What an insertion does to the view by names -/

@[simp] theorem get?_empty (name : String) : (empty : NameMap α).get? name = none := rfl

theorem keys_insert (m : NameMap α) (name : String) (a : α) :
    (m.insert name a).keys = if name ∈ m.keys then m.keys else m.keys ++ [name] := by
  unfold insert
  split
  · simp [keys, keys_replace]
  · simp [keys]

theorem mem_keys_insert {m : NameMap α} {name other : String} {a : α} :
    other ∈ (m.insert name a).keys ↔ other = name ∨ other ∈ m.keys := by
  rw [keys_insert]
  split
  · next hName => exact ⟨Or.inr, fun h => h.elim (fun hOther => hOther ▸ hName) id⟩
  · rw [List.mem_append, List.mem_singleton, or_comm]

/-- Old names keep their places in front. -/
theorem keys_prefix_insert (m : NameMap α) (name : String) (a : α) :
    m.keys <+: (m.insert name a).keys := by
  rw [keys_insert]
  split
  · exact List.prefix_refl _
  · exact List.prefix_append _ _

theorem get?_eq_none_iff {m : NameMap α} {name : String} : m.get? name = none ↔ name ∉ m.keys := by
  simp only [get?, keys, List.lookup_eq_none_iff, List.mem_map, not_exists, not_and]
  constructor
  · intro h entry hEntry hName
    simpa [hName] using h entry hEntry
  · intro h entry hEntry
    simpa using fun hName => h entry hEntry hName.symm

theorem lookup_replace (entries : List (String × α)) (name other : String) (a : α)
    (hName : name ∈ entries.map Prod.fst) :
    (replace name a entries).lookup other =
      if other = name then some a else entries.lookup other := by
  induction entries with
  | nil => simp at hName
  | cons entry entries ih =>
    obtain ⟨key, b⟩ := entry
    by_cases hKey : key = name
    · subst hKey
      by_cases hOther : other = key
      · simp [replace, hOther]
      · have hRest : (replace key a entries).lookup other = entries.lookup other := by
          by_cases hMem : key ∈ entries.map Prod.fst
          · simpa [hOther] using ih hMem
          · suffices replace key a entries = entries by rw [this]
            simp only [replace]
            refine (List.map_congr_left fun entry hEntry => ?_).trans (List.map_id _)
            have : entry.1 ≠ key := fun h => hMem (h ▸ List.mem_map_of_mem hEntry)
            simp [this]
        have hNe : (other == key) = false := by simpa using hOther
        simp only [replace] at hRest
        simp [replace, List.lookup_cons, hOther, hNe, hRest]
    · have hMem : name ∈ entries.map Prod.fst := by
        simpa [Ne.symm hKey] using hName
      have hRest := ih hMem
      simp only [replace] at hRest
      by_cases hOther : other = key
      · subst hOther
        simp [replace, hKey]
      · have hNe : (other == key) = false := by simpa using hOther
        simp [replace, List.lookup_cons, hKey, hNe, hRest]

/-- An insertion changes what stands under its own name and nothing else. -/
theorem get?_insert (m : NameMap α) (name other : String) (a : α) :
    (m.insert name a).get? other = if other = name then some a else m.get? other := by
  unfold insert
  split
  · next hName => exact lookup_replace m.entries name other a hName
  · next hName =>
    have hNone : m.entries.lookup name = none := get?_eq_none_iff.2 hName
    simp only [get?, List.lookup_append]
    by_cases hOther : other = name
    · subst hOther
      simp [hNone]
    · have hNe : (other == name) = false := by simpa using hOther
      simp [List.lookup_cons, hNe, hOther]

theorem keys_mapValues (f : String → α → β) (m : NameMap α) : (m.mapValues f).keys = m.keys := by
  simp [mapValues, keys, Function.comp_def]

theorem get?_mapValues (f : String → α → β) (m : NameMap α) (name : String) :
    (m.mapValues f).get? name = (m.get? name).map (f name) := by
  simp only [get?, mapValues]
  induction m.entries with
  | nil => rfl
  | cons entry entries ih =>
    obtain ⟨key, a⟩ := entry
    by_cases hName : name = key
    · subst hName
      simp
    · have hNe : (name == key) = false := by simpa using hName
      simp [List.lookup_cons, hNe, ih]

/-- A name has at most one entry, so what stands in an entry is what stands under its name. -/
theorem get?_eq_some_iff {m : NameMap α} {name : String} {a : α} :
    m.get? name = some a ↔ (name, a) ∈ m.entries := by
  obtain ⟨entries, nodup⟩ := m
  simp only [get?]
  induction entries with
  | nil => simp
  | cons entry entries ih =>
    obtain ⟨key, b⟩ := entry
    rw [List.map_cons, List.nodup_cons] at nodup
    by_cases hName : name = key
    · subst hName
      have hLater : (name, a) ∉ entries := fun h =>
        nodup.1 (List.mem_map.2 ⟨(name, a), h, rfl⟩)
      simp [hLater, eq_comm]
    · have hNe : (name == key) = false := by simpa using hName
      simp [List.lookup_cons, hNe, hName, ih nodup.2]

/-! ### Maps of pairs without repeated names -/

theorem entries_insert_of_not_mem {m : NameMap α} {name : String} (hName : name ∉ m.keys)
    (a : α) : (m.insert name a).entries = m.entries ++ [(name, a)] := by
  rw [insert, dif_neg hName]

theorem entries_ofList {pairs : List (String × α)} (hNodup : (pairs.map Prod.fst).Nodup) :
    (ofList pairs).entries = pairs := by
  have hFrom (m : NameMap α) (hNew : (m.keys ++ pairs.map Prod.fst).Nodup) :
      (pairs.foldl (fun m pair => m.insert pair.1 pair.2) m).entries = m.entries ++ pairs := by
    induction pairs generalizing m with
    | nil => simp
    | cons pair pairs ih =>
      have hHere : pair.1 ∉ m.keys := by
        intro hMem
        rw [List.map_cons] at hNew
        exact (List.nodup_append.1 hNew).2.2 pair.1 hMem pair.1 List.mem_cons_self rfl
      have hKeys : (m.insert pair.1 pair.2).keys = m.keys ++ [pair.1] := by
        rw [keys_insert, if_neg hHere]
      rw [List.foldl_cons, ih (List.nodup_cons.1 hNodup).2 _ (by simpa [hKeys] using hNew),
        entries_insert_of_not_mem hHere]
      simp
  simpa [ofList, empty] using hFrom empty (by simpa [keys, empty] using hNodup)

end NameMap

end ErDiagram
