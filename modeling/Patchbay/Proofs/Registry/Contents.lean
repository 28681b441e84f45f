import Mathlib.Data.Finset.Card
import Mathlib.Data.List.Perm.Basic
import Patchbay.Registry

/-!
# What a registry holds

A registry is told by the history of its registrations: its identifiers stand in the order in which
each was first registered, and each has the type that was last registered for it
(`Registry.Records`). One registration adds itself to the history (`Registry.Records.register`), and
so does any sequence of them. All that a registry offers follows (`Registry.contents_registerAll`).
-/

namespace Patchbay

/-- A node as it is made from a type: unselected, its output unset and its inputs unbound. -/
structure Node.NewOf (n : Node) (t : NodeType) : Prop where
  kind_eq : n.kind = t.kind
  name_eq : n.name = t.name
  description_eq : n.description = t.description
  slots_eq : n.slots = t.inputs
  bindings_eq : n.bindings = List.replicate t.inputs.length .unbound
  output_eq : n.output = .unset
  selected_eq : n.selected = false

theorem Node.newOf_ofType (t : NodeType) (id : NodeId) : (Node.ofType t id).NewOf t where
  kind_eq := rfl
  name_eq := rfl
  description_eq := rfl
  slots_eq := (List.map_map ..).trans (List.map_id _)
  bindings_eq := (List.map_map ..).trans (List.map_const' ..)
  output_eq := rfl
  selected_eq := rfl

namespace Registry

variable {r : Registry} {history : List NodeType}

/-- The identifiers in order. -/
def ids (r : Registry) : List String := r.types.map (·.id)

/-- Registers types one after another. -/
def registerAll (r : Registry) (ts : List NodeType) : Registry := ts.foldl register r

/-- The type that was last registered for an identifier. -/
def last? (history : List NodeType) (id : String) : Option NodeType :=
  history.reverse.find? (·.id == id)

/-! ## One registration -/

theorem any_id_iff {id : String} : r.types.any (·.id == id) = true ↔ id ∈ r.ids := by
  simp [ids]

theorem get?_eq_none_iff {id : String} : r.get? id = none ↔ id ∉ r.ids := by
  simp [get?, ids]

/-- A known identifier keeps its place, and a new one comes last. -/
theorem ids_register (r : Registry) (t : NodeType) :
    (r.register t).ids = if t.id ∈ r.ids then r.ids else r.ids ++ [t.id] := by
  unfold register
  by_cases hknown : t.id ∈ r.ids
  · rw [if_pos (any_id_iff.mpr hknown), if_pos hknown]
    simp only [ids, List.map_map]
    apply List.map_congr_left
    intro u _
    simp only [Function.comp]
    split
    · exact Eq.symm ‹_›
    · rfl
  · rw [if_neg (mt any_id_iff.mp hknown), if_neg hknown]
    exact List.map_append

/-- The identifier has the new type then, and no other identifier has changed. -/
theorem get?_register (r : Registry) (t : NodeType) (id : String) :
    (r.register t).get? id = if t.id = id then some t else r.get? id := by
  unfold register get?
  by_cases hknown : t.id ∈ r.ids
  · rw [if_pos (any_id_iff.mpr hknown), List.find?_map]
    -- an entry answers to the same identifier as before
    have hsame : ((·.id == id) ∘ fun u : NodeType => if u.id = t.id then t else u) =
        (·.id == id) := by
      funext u
      simp only [Function.comp]
      split
      · rw [‹u.id = t.id›]
      · rfl
    rw [hsame]
    cases hfind : r.types.find? (·.id == id) with
    | none =>
      rw [if_neg]
      · rfl
      · rintro rfl
        exact get?_eq_none_iff.mp hfind hknown
    | some u =>
      have hid : u.id = id := by simpa using List.find?_some hfind
      rw [Option.map_some, hid]
      simp only [eq_comm (a := id)]
      split <;> rfl
  · rw [if_neg (mt any_id_iff.mp hknown), List.find?_append]
    by_cases hid : t.id = id
    · have hnone : r.types.find? (·.id == id) = none := get?_eq_none_iff.mpr (hid ▸ hknown)
      rw [if_pos hid, hnone, Option.none_or]
      simp [hid]
    · rw [if_neg hid]
      simp [hid]

/-! ## Histories -/

theorem last?_append_singleton (history : List NodeType) (t : NodeType) (id : String) :
    last? (history ++ [t]) id = if t.id = id then some t else last? history id := by
  rw [last?, List.reverse_append, List.reverse_singleton, List.singleton_append,
    List.find?_cons]
  by_cases hid : t.id = id
  · rw [if_pos hid, beq_iff_eq.mpr hid]
  · rw [if_neg hid, beq_eq_false_iff_ne.mpr hid]
    rfl

/-- What comes last in a list is left out if it came before. -/
theorem eraseDups_append_singleton {α : Type} [DecidableEq α] (xs : List α) (x : α) :
    (xs ++ [x]).eraseDups = if x ∈ xs then xs.eraseDups else xs.eraseDups ++ [x] := by
  have hsingle : [x].eraseDups = [x] := by simp [List.eraseDups_cons]
  rw [List.eraseDups_append]
  by_cases hx : x ∈ xs <;> simp [hx, hsingle, List.removeAll]

/-- A registry with a history of registrations. -/
structure Records (r : Registry) (history : List NodeType) : Prop where
  ids_eq : r.ids = (history.map (·.id)).eraseDups
  nodup : r.ids.Nodup
  get?_eq : ∀ id, r.get? id = last? history id

theorem records_empty : Records {} [] := ⟨rfl, List.nodup_nil, fun _ => rfl⟩

theorem Records.mem_ids_iff (h : Records r history) {id : String} :
    id ∈ r.ids ↔ id ∈ history.map (·.id) := by
  rw [h.ids_eq, List.mem_eraseDups]

theorem Records.register (h : Records r history) (t : NodeType) :
    Records (r.register t) (history ++ [t]) where
  ids_eq := by
    simp only [ids_register, h.ids_eq, List.mem_eraseDups, List.map_append, List.map_cons,
      List.map_nil, eraseDups_append_singleton]
  nodup := by
    rw [ids_register]
    split
    · exact h.nodup
    · rename_i hnew
      exact h.nodup.append (List.nodup_singleton _) (List.disjoint_singleton.mpr hnew)
  get?_eq id := by rw [get?_register, last?_append_singleton, h.get?_eq]

theorem Records.registerAll (h : Records r history) (ts : List NodeType) :
    Records (r.registerAll ts) (history ++ ts) := by
  induction ts generalizing r history with
  | nil => rwa [List.append_nil]
  | cons t ts ih =>
    rw [← List.singleton_append, ← List.append_assoc]
    exact ih (h.register t)

theorem records_standard : Records standard (NodeKind.all.map NodeKind.nodeType) :=
  records_empty.registerAll _

/-! ## What follows from the history -/

/-- Every entry is found under its identifier. -/
theorem get?_of_mem (hnodup : r.ids.Nodup) {t : NodeType} (ht : t ∈ r.types) :
    r.get? t.id = some t := by
  cases hfind : r.get? t.id with
  | none => exact absurd (List.mem_map_of_mem ht) (get?_eq_none_iff.mp hfind)
  | some u =>
    have hid : u.id = t.id := by simpa using List.find?_some hfind
    rw [List.inj_on_of_nodup_map hnodup (List.mem_of_find?_eq_some hfind) ht hid]

theorem Records.types_eq (h : Records r history) :
    r.types.map some = ((history.map (·.id)).eraseDups).map (last? history) := by
  rw [← h.ids_eq, ids, List.map_map]
  apply List.map_congr_left
  intro t ht
  rw [Function.comp, ← h.get?_eq, get?_of_mem h.nodup ht]

theorem Records.size_eq (h : Records r history) :
    r.size = (history.map (·.id)).toFinset.card := by
  have hsame : (history.map (·.id)).toFinset = r.ids.toFinset := by
    ext id
    rw [List.mem_toFinset, List.mem_toFinset, h.mem_ids_iff]
  rw [hsame, List.toFinset_card_of_nodup h.nodup, ids, List.length_map, size]

/-- The sections of the palette share out the types. -/
theorem categories_perm (r : Registry) :
    (r.inCategory .control ++ r.inCategory .output ++ r.inCategory .operator).Perm r.types := by
  unfold inCategory
  induction r.types with
  | nil => exact .nil
  | cons t ts ih =>
    cases hcategory : t.category with
    | control => simpa [List.filter_cons, hcategory] using ih
    | output =>
      simp only [List.filter_cons, hcategory, beq_self_eq_true, if_true, List.append_assoc,
        List.cons_append] at ih ⊢
      exact List.perm_middle.trans (ih.cons t)
    | operator =>
      simp only [List.filter_cons, hcategory, beq_self_eq_true, if_true] at ih ⊢
      exact List.perm_middle.trans (ih.cons t)

/--
After any sequence of registrations, in an empty registry or after those of the built-in types, the
types stand in the order in which their identifiers were first registered, each identifier once and
with the type last registered for it. Look-up gives that type, and nothing for an identifier that
was never registered. The size is the number of identifiers. Each section of the palette is a part
of the types in their order, and together they hold each type once. A new node can be made for just
the identifiers that were registered, and it is one of the type last registered.
-/
theorem contents_registerAll (builtIn : Bool) (ts : List NodeType) :
    let r := (if builtIn then standard else {}).registerAll ts
    let history := (if builtIn then NodeKind.all.map NodeKind.nodeType else []) ++ ts
    let registered := history.map (·.id)
    (r.types.map (·.id) = registered.eraseDups ∧ (r.types.map (·.id)).Nodup ∧
        r.types.map some = registered.eraseDups.map (last? history)) ∧
      (∀ id, r.get? id = last? history id ∧ (r.get? id = none ↔ id ∉ registered)) ∧
      (r.size = registered.toFinset.card ∧ (r.isEmpty = true ↔ r.size = 0)) ∧
      ((∀ c, (r.inCategory c).Sublist r.types ∧
          ∀ t, t ∈ r.inCategory c ↔ t ∈ r.types ∧ t.category = c) ∧
        (r.inCategory .control ++ r.inCategory .output ++ r.inCategory .operator).Perm r.types) ∧
      ∀ typeId id, ((r.create? typeId id).isSome ↔ typeId ∈ registered) ∧
        Option.Rel Node.NewOf (r.create? typeId id) (last? history typeId) := by
  intro r history registered
  have hstart : Records (if builtIn then standard else {})
      (if builtIn then NodeKind.all.map NodeKind.nodeType else []) := by
    cases builtIn with
    | false => exact records_empty
    | true => exact records_standard
  have h : Records r history := hstart.registerAll ts
  have hnone (id) : r.get? id = none ↔ id ∉ registered :=
    get?_eq_none_iff.trans (not_congr h.mem_ids_iff)
  refine ⟨⟨h.ids_eq, h.nodup, h.types_eq⟩, fun id => ⟨h.get?_eq id, hnone id⟩,
    ⟨h.size_eq, ?_⟩, ⟨fun c => ⟨List.filter_sublist, fun t => ?_⟩, r.categories_perm⟩,
    fun typeId id => ⟨?_, ?_⟩⟩
  · rw [isEmpty, size, List.isEmpty_iff, List.length_eq_zero_iff]
  · rw [inCategory, List.mem_filter, beq_iff_eq]
  · rw [create?, Option.isSome_map, ← Option.ne_none_iff_isSome, ne_eq, hnone, not_not]
  · rw [create?, ← h.get?_eq]
    cases r.get? typeId with
    | none => exact .none
    | some t => exact .some (Node.newOf_ofType t id)

end Registry

end Patchbay
