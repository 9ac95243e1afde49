import SchemaClient.Schema.Basic

/-!
# Schemas slot by slot

A schema is retyped in the order of its slots: the effects of a retyping are those of one pass over
the slots, and where every slot gets a type, whatever effect that has, the result is the schema with
each of its types replaced.
-/
namespace SchemaClient

namespace TypeShape

variable {ρ σ : Type}

/-- The type refers to a target, under any number of arrays. -/
inductive Mentions (target : ρ) : TypeShape ρ → Prop
  | here : Mentions target (reference target)
  | element {element : TypeShape ρ} : Mentions target element → Mentions target (array element)

theorem mentions_iff {type : TypeShape ρ} {target : ρ} :
    type.Mentions target ↔ type.target? = some target := by
  constructor
  · intro h
    induction h with
    | here => rfl
    | element _ ih => exact ih
  · intro h
    induction type with
    | array element ih => exact .element (ih h)
    | reference other =>
      simp only [target?, Option.some.injEq] at h
      subst h
      exact .here
    | _ => simp [target?] at h

theorem target?_map (f : ρ → σ) (type : TypeShape ρ) :
    (type.map f).target? = type.target?.map f := by
  induction type with
  | array element ih => exact ih
  | _ => rfl

end TypeShape

namespace SchemaOf

variable {τ σ : Type}

theorem mem_slots_of_type {s : SchemaOf τ} {t : Composite τ} (ht : t ∈ s.types) {a : Attribute τ}
    (ha : a ∈ t.attributes) : ⟨t.name, a.name, a.type⟩ ∈ s.slots :=
  List.mem_append_left _ (List.mem_append_left _
    (List.mem_flatMap.mpr ⟨t, ht, List.mem_map.mpr ⟨a, ha, rfl⟩⟩))

theorem mem_slots_of_table {s : SchemaOf τ} {t : Table τ} (ht : t ∈ s.tables) {a : Attribute τ}
    (ha : a ∈ t.columns) : ⟨t.name, a.name, a.type⟩ ∈ s.slots :=
  List.mem_append_left _ (List.mem_append_right _
    (List.mem_flatMap.mpr ⟨t, ht, List.mem_map.mpr ⟨a, ha, rfl⟩⟩))

theorem mem_slots_of_function {s : SchemaOf τ} {r : Routine τ} (hr : r ∈ s.functions)
    {a : Attribute τ} (ha : a ∈ r.parameters) : ⟨r.name, a.name, a.type⟩ ∈ s.slots :=
  List.mem_append_right _ (List.mem_flatMap.mpr
    ⟨r, hr, List.mem_append_left _ (List.mem_map.mpr ⟨a, ha, rfl⟩)⟩)

theorem mem_slots_of_return {s : SchemaOf τ} {r : Routine τ} (hr : r ∈ s.functions) :
    ⟨r.name, returnSlot, r.returnType⟩ ∈ s.slots :=
  List.mem_append_right _ (List.mem_flatMap.mpr
    ⟨r, hr, List.mem_append_right _ (List.mem_singleton_self _)⟩)

theorem attributeSlots_retyped (f : τ → σ) (owner : String) (attributes : List (Attribute τ)) :
    attributeSlots owner (attributes.map (map.retyped f)) =
      (attributeSlots owner attributes).map fun slot => ⟨slot.owner, slot.name, f slot.type⟩ := by
  simp [attributeSlots, map.retyped]

/-- Replacing types keeps every slot in its place. -/
theorem slots_map (f : τ → σ) (s : SchemaOf τ) :
    (s.map f).slots = s.slots.map fun slot => ⟨slot.owner, slot.name, f slot.type⟩ := by
  simp only [slots, map, List.flatMap_map, List.map_append, List.map_flatMap,
    attributeSlots_retyped, List.map_cons, List.map_nil]

variable {m : Type → Type} [Monad m] [LawfulMonad m]

theorem retypeAttributes_types (f : Slot τ → m σ) (owner : String)
    (attributes : List (Attribute τ)) :
    (·.map (·.type)) <$> retypeAttributes f owner attributes =
      (attributeSlots owner attributes).mapM f := by
  induction attributes with
  | nil => simp [retypeAttributes, attributeSlots]
  | cons a rest ih =>
    simp only [retypeAttributes, attributeSlots, List.map_cons, List.mapM_cons] at ih ⊢
    rw [← ih]
    simp

/-- If each item is retyped in the order of its slots, so is a list of them. -/
theorem mapM_types {α β : Type} {f : Slot τ → m σ} (slotsOf : α → List (Slot τ))
    (retypeOne : α → m β) (typesOf : β → List σ)
    (each : ∀ a, typesOf <$> retypeOne a = (slotsOf a).mapM f) (items : List α) :
    (·.flatMap typesOf) <$> items.mapM retypeOne = (items.flatMap slotsOf).mapM f := by
  induction items with
  | nil => simp
  | cons a rest ih =>
    rw [List.flatMap_cons, List.mapM_append, ← each a, ← ih, List.mapM_cons]
    simp

/-- Retyping goes through the slots in order. -/
theorem retype_types (f : Slot τ → m σ) (s : SchemaOf τ) :
    (·.slots.map (·.type)) <$> s.retype f = s.slots.mapM f := by
  have htypes := mapM_types (f := f) (fun t => attributeSlots t.name t.attributes)
    (fun t => do pure ⟨t.name, t.displayName, ← retypeAttributes f t.name t.attributes⟩)
    (fun t : Composite σ => t.attributes.map (·.type))
    (fun t => by rw [← retypeAttributes_types]; simp) s.types
  have htables := mapM_types (f := f) (fun t => attributeSlots t.name t.columns)
    (fun t => do pure ⟨t.name, t.displayName, ← retypeAttributes f t.name t.columns⟩)
    (fun t : Table σ => t.columns.map (·.type))
    (fun t => by rw [← retypeAttributes_types]; simp) s.tables
  have hfunctions := mapM_types (f := f)
    (fun r => attributeSlots r.name r.parameters ++ [⟨r.name, returnSlot, r.returnType⟩])
    (fun r => do
      let parameters ← retypeAttributes f r.name r.parameters
      pure ⟨r.name, parameters, ← f ⟨r.name, returnSlot, r.returnType⟩⟩)
    (fun r : Routine σ => r.parameters.map (·.type) ++ [r.returnType])
    (fun r => by rw [List.mapM_append, ← retypeAttributes_types]; simp) s.functions
  rw [slots, List.mapM_append, List.mapM_append, ← htypes, ← htables, ← hfunctions]
  simp [retype, slots, attributeSlots, List.map_flatMap, Function.comp_def]

theorem forM_flatMap {α β : Type} (items : List α) (partsOf : α → List β) (act : β → m Unit) :
    forM (items.flatMap partsOf) act = forM items fun a => forM (partsOf a) act := by
  induction items with
  | nil => rfl
  | cons a rest ih => rw [List.flatMap_cons, List.forM_append, ih, List.forM_cons]

/-- If each item gives a result beside an effect, so does a list of them. -/
theorem mapM_effect {α β : Type} {f : α → m β} {e : α → m Unit} {g : α → β} {items : List α}
    (h : ∀ a ∈ items, f a = do e a; pure (g a)) :
    items.mapM f = (do forM items e; pure (items.map g)) := by
  induction items with
  | nil => simp
  | cons a rest ih =>
    rw [List.forall_mem_cons] at h
    rw [List.mapM_cons, h.1, ih h.2, List.forM_cons]
    simp

theorem retypeAttributes_effect {f : Slot τ → m σ} {e : Slot τ → m Unit} {g : τ → σ}
    {owner : String} {attributes : List (Attribute τ)}
    (h : ∀ slot ∈ attributeSlots owner attributes, f slot = do e slot; pure (g slot.type)) :
    retypeAttributes f owner attributes = (do
      forM (attributeSlots owner attributes) e
      pure (attributes.map (map.retyped g))) := by
  rw [attributeSlots, List.forM_map]
  refine mapM_effect fun a ha => ?_
  rw [h _ (List.mem_map.mpr ⟨a, ha, rfl⟩)]
  simp [map.retyped]

/-- Where every slot has a type to be given, retyping is replacing, with the effects of one pass
over the slots. -/
theorem retype_effect {f : Slot τ → m σ} {e : Slot τ → m Unit} {g : τ → σ} {s : SchemaOf τ}
    (h : ∀ slot ∈ s.slots, f slot = do e slot; pure (g slot.type)) :
    s.retype f = (do forM s.slots e; pure (s.map g)) := by
  simp only [slots, List.mem_append, List.mem_flatMap, or_imp, forall_and] at h
  obtain ⟨⟨htypes, htables⟩, hfunctions⟩ := h
  have types := mapM_effect (e := fun t => forM (attributeSlots t.name t.attributes) e)
    (f := fun t => do pure ⟨t.name, t.displayName, ← retypeAttributes f t.name t.attributes⟩)
    (g := fun t => (⟨t.name, t.displayName, t.attributes.map (map.retyped g)⟩ : Composite σ))
    fun t (ht : t ∈ s.types) => by
      rw [retypeAttributes_effect fun slot hs => htypes slot ⟨t, ht, hs⟩]
      simp
  have tables := mapM_effect (e := fun t => forM (attributeSlots t.name t.columns) e)
    (f := fun t => do pure ⟨t.name, t.displayName, ← retypeAttributes f t.name t.columns⟩)
    (g := fun t => (⟨t.name, t.displayName, t.columns.map (map.retyped g)⟩ : Table σ))
    fun t (ht : t ∈ s.tables) => by
      rw [retypeAttributes_effect fun slot hs => htables slot ⟨t, ht, hs⟩]
      simp
  have functions := mapM_effect
    (e := fun r =>
      forM (attributeSlots r.name r.parameters ++ [⟨r.name, returnSlot, r.returnType⟩]) e)
    (f := fun r => do
      let parameters ← retypeAttributes f r.name r.parameters
      pure ⟨r.name, parameters, ← f ⟨r.name, returnSlot, r.returnType⟩⟩)
    (g := fun r => (⟨r.name, r.parameters.map (map.retyped g), g r.returnType⟩ : Routine σ))
    fun r (hr : r ∈ s.functions) => by
      rw [retypeAttributes_effect fun slot hs => hfunctions slot ⟨r, hr, .inl hs⟩,
        hfunctions _ ⟨r, hr, .inr (List.mem_singleton_self _)⟩, List.forM_append]
      simp
  rw [slots, List.forM_append, List.forM_append, forM_flatMap, forM_flatMap, forM_flatMap]
  simp only [retype, types, tables, functions, bind_assoc, pure_bind, map]

/-- Where every slot has a type to be given without an effect, retyping is replacing. -/
theorem retype_pure {f : Slot τ → m σ} {g : τ → σ} {s : SchemaOf τ}
    (h : ∀ slot ∈ s.slots, f slot = pure (g slot.type)) : s.retype f = pure (s.map g) := by
  have hquiet : forM s.slots (fun _ => pure ⟨⟩ : Slot τ → m Unit) = pure ⟨⟩ := by
    induction s.slots with
    | nil => rfl
    | cons slot rest ih => rw [List.forM_cons, pure_bind, ih]
  rw [retype_effect (e := fun _ => pure ⟨⟩) fun slot hslot => by rw [h slot hslot, pure_bind],
    hquiet, pure_bind]

end SchemaOf
end SchemaClient
