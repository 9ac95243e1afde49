import SchemaClient.Entries

/-!
# Looking entries up

What is found under a name after an entry has been put, and in the entries of a list in which names
repeat: there it is what the last entry of the name gives, or the first if later ones are left out.
What is put together has each name once.
-/
namespace SchemaClient.Entries

variable {α : Type}

theorem any_name_iff {entries : List (String × α)} {name : String} :
    entries.any (·.1 == name) = true ↔ name ∈ names entries := by
  simp [names]

theorem lookup_isSome_iff_mem {entries : List (String × α)} {name : String} :
    (entries.lookup name).isSome ↔ name ∈ names entries := by
  induction entries with
  | nil => simp [names]
  | cons entry rest ih =>
    simp only [names, List.map_cons, List.mem_cons] at ih ⊢
    rw [List.lookup_cons]
    by_cases h : name = entry.1
    · simp [h]
    · simp only [beq_false_of_ne h, ih, h, false_or]

/-- An entry under a new name comes last. -/
theorem put_new {entries : List (String × α)} {name : String} (h : name ∉ names entries) (a : α) :
    put entries name a = entries ++ [(name, a)] := by
  rw [put, if_neg]
  rwa [any_name_iff]

theorem lookup_replaced (entries : List (String × α)) (name : String) (a : α) (other : String) :
    (entries.map fun entry => if entry.1 == name then (name, a) else entry).lookup other =
      if other = name then (entries.lookup name).map fun _ => a else entries.lookup other := by
  induction entries with
  | nil => simp
  | cons entry rest ih =>
    obtain ⟨key, b⟩ := entry
    rw [List.map_cons, List.lookup_cons]
    by_cases hkey : key = name
    · subst hkey
      by_cases hother : other = key
      · simp [hother]
      · simpa [beq_false_of_ne hother, hother, List.lookup_cons] using ih
    · by_cases hother : other = key
      · simp [beq_false_of_ne hkey, hother, hkey]
      · have hnew : (name == key) = false := beq_false_of_ne (Ne.symm hkey)
        simpa [beq_false_of_ne hkey, beq_false_of_ne hother, hnew, List.lookup_cons] using ih

theorem lookup_put (entries : List (String × α)) (name : String) (a : α) (other : String) :
    (put entries name a).lookup other = if other = name then some a else entries.lookup other := by
  by_cases h : name ∈ names entries
  · rw [put, if_pos (any_name_iff.mpr h), lookup_replaced]
    obtain ⟨b, hb⟩ := Option.isSome_iff_exists.mp (lookup_isSome_iff_mem.mpr h)
    rw [hb, Option.map_some]
  · have hnone : entries.lookup name = none := by
      rw [← Option.not_isSome_iff_eq_none, lookup_isSome_iff_mem]
      exact h
    rw [put_new h, List.lookup_append, List.lookup_cons]
    by_cases hother : other = name
    · simp [hother, hnone]
    · simp [beq_false_of_ne hother, hother]

theorem lookup_foldl_put (list entries : List (String × α)) (name : String) :
    (list.foldl (fun entries entry => put entries entry.1 entry.2) entries).lookup name =
      (list.reverse.lookup name).or (entries.lookup name) := by
  induction list generalizing entries with
  | nil => simp
  | cons entry rest ih =>
    rw [List.foldl_cons, ih, List.reverse_cons, List.lookup_append, lookup_put,
      List.lookup_cons, Option.or_assoc]
    by_cases h : name = entry.1
    · simp [h]
    · simp [beq_false_of_ne h, h]

/-- Of entries with one name the last gives what is found. -/
theorem lookup_ofList (list : List (String × α)) (name : String) :
    (ofList list).lookup name = list.reverse.lookup name := by
  rw [ofList, lookup_foldl_put]
  simp

theorem mem_names_ofList {list : List (String × α)} {name : String} :
    name ∈ names (ofList list) ↔ name ∈ names list := by
  rw [← lookup_isSome_iff_mem, lookup_ofList, lookup_isSome_iff_mem]
  simp [names]

theorem lookup_foldl_putNew (list entries : List (String × α)) (name : String) :
    (list.foldl (fun entries entry => putNew entries entry.1 entry.2) entries).lookup name =
      (entries.lookup name).or (list.lookup name) := by
  induction list generalizing entries with
  | nil => simp
  | cons entry rest ih =>
    rw [List.foldl_cons, ih]
    by_cases hold : entry.1 ∈ names entries
    · rw [putNew, if_pos (any_name_iff.mpr hold)]
      by_cases h : name = entry.1
      · obtain ⟨a, ha⟩ := Option.isSome_iff_exists.mp (lookup_isSome_iff_mem.mpr hold)
        rw [h, ha, Option.some_or, Option.some_or]
      · rw [List.lookup_cons, beq_false_of_ne h]
    · rw [putNew, if_neg (mt any_name_iff.mp hold), List.lookup_append, Option.or_assoc,
        ← List.lookup_append, List.singleton_append]

/-- If later entries of a name are left out, the first gives what is found. -/
theorem lookup_ofFirst (list : List (String × α)) (name : String) :
    (ofFirst list).lookup name = list.lookup name := by
  rw [ofFirst, lookup_foldl_putNew]
  simp

theorem mem_names_ofFirst {list : List (String × α)} {name : String} :
    name ∈ names (ofFirst list) ↔ name ∈ names list := by
  rw [← lookup_isSome_iff_mem, lookup_ofFirst, lookup_isSome_iff_mem]

/-- Things listed under their own names are found by them. -/
theorem lookup_named (nameOf : α → String) (list : List α) (name : String) :
    (list.map fun a => (nameOf a, a)).lookup name = list.find? (nameOf · == name) := by
  induction list with
  | nil => rfl
  | cons a rest ih =>
    rw [List.map_cons, List.lookup_cons, List.find?_cons, ih, BEq.comm]

theorem mem_of_lookup {entries : List (String × α)} {name : String} {a : α}
    (h : entries.lookup name = some a) : (name, a) ∈ entries := by
  obtain ⟨before, after, rfl, -⟩ := List.lookup_eq_some_iff.mp h
  simp

variable {entries list : List (String × α)} {name : String} {a : α}

theorem names_put : names (put entries name a) =
    if name ∈ names entries then names entries else names entries ++ [name] := by
  by_cases h : name ∈ names entries
  · rw [put, if_pos (any_name_iff.mpr h), if_pos h, names, List.map_map]
    refine List.map_congr_left fun entry _ => ?_
    by_cases hname : entry.1 = name <;> simp [hname]
  · rw [put_new h, if_neg h, names, List.map_append]
    rfl

theorem nodup_put (h : (names entries).Nodup) : (names (put entries name a)).Nodup := by
  rw [names_put]
  split
  · exact h
  · next hnew =>
    refine List.nodup_append.mpr ⟨h, List.pairwise_singleton _ _, fun other hother last hlast => ?_⟩
    rw [List.mem_singleton.mp hlast]
    rintro rfl
    exact hnew hother

theorem mem_put {entry : String × α} (h : entry ∈ put entries name a) :
    entry ∈ entries ∨ entry = (name, a) := by
  rw [put] at h
  split at h
  · obtain ⟨old, hold, rfl⟩ := List.mem_map.mp h
    split
    · exact .inr rfl
    · exact .inl hold
  · exact (List.mem_append.mp h).imp_right List.mem_singleton.mp

/-- What is put together of a list has each name once, and entries of the list only. -/
theorem foldl_put_spec (hentries : (names entries).Nodup) :
    (names (list.foldl (fun entries entry => put entries entry.1 entry.2) entries)).Nodup ∧
      ∀ entry ∈ list.foldl (fun entries entry => put entries entry.1 entry.2) entries,
        entry ∈ entries ∨ entry ∈ list := by
  induction list generalizing entries with
  | nil => exact ⟨hentries, fun entry h => .inl h⟩
  | cons first rest ih =>
    have hput : (names (put entries first.1 first.2)).Nodup := nodup_put hentries
    obtain ⟨hnodup, hmem⟩ := ih hput
    refine ⟨hnodup, fun entry hentry => ?_⟩
    rcases hmem entry hentry with hold | hrest
    · rcases mem_put hold with hold | rfl
      · exact .inl hold
      · exact .inr List.mem_cons_self
    · exact .inr (List.mem_cons_of_mem _ hrest)

theorem nodup_ofList : (names (ofList list)).Nodup := by
  have hempty : (names ([] : List (String × α))).Nodup := List.nodup_nil
  exact (foldl_put_spec hempty).1

theorem mem_of_mem_ofList {entry : String × α} (h : entry ∈ ofList list) : entry ∈ list := by
  have hempty : (names ([] : List (String × α))).Nodup := List.nodup_nil
  exact ((foldl_put_spec hempty).2 entry h).resolve_left List.not_mem_nil

end SchemaClient.Entries
