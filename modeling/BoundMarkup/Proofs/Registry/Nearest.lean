/-
  BoundMarkup.Proofs.Registry.Nearest
  ───────────────────────────────────
  **ONE CAPABILITY PROPERTY OF EACH NAME.**

  Bindings ask for the capability property of a name, markup for all of a type.
  The first stops at a bindable type that declares the name, the second collects
  what all types declare and keeps the first of each name.  A declaration makes its
  type bindable (`TypeEntry.Made.bindable`), so both find the declaration at the
  nearest level of supertypes (`Registry.capability?_nearest`).
-/
import BoundMarkup.Proofs.Registry.Capabilities
import BoundMarkup.Proofs.Registry.Declared
import BoundMarkup.Proofs.Registry.Reordering
import BoundMarkup.Registry.Controls

namespace BoundMarkup

/-! ## §1. Declarations. -/

/-- More traits do not take this one away. -/
theorem TypeFlags.bindable_union {a b : TypeFlags} (h : a.bindable = true) :
    (a.union b).bindable = true := by
  show (a.bindable || b.bindable) = true
  rw [h, Bool.true_or]

/-- **A type with a capability property is bindable**, however it was declared. -/
theorem TypeEntry.Made.bindable {e : TypeEntry} (h : e.Made) :
    e.capabilities ≠ [] → e.flags.bindable = true := by
  induction h with
  | declare name moduleName => exact fun hne => absurd rfl hne
  | flags _ flags ih => exact fun hne => TypeFlags.bindable_union (ih hne)
  | generic _ _ ih => exact ih
  | derives _ _ ih => exact ih
  | property _ _ _ _ ih => exact ih
  | nested _ _ ih => exact ih
  | method _ _ ih => exact ih
  | extension _ _ ih => exact fun hne => TypeFlags.bindable_union (ih hne)
  | indexer _ _ _ _ ih => exact ih
  | @capability e _ name type markup ih =>
      intro _
      show (e.flags.bindable || true) = true
      exact Bool.or_true _

namespace Registry

variable {r : Registry} {t : TypeRef} {name : String} {c : Capability}

/-! ## §2. Two lookups. -/

/-- Of types that declarations made, the one that declares a name is bindable. -/
theorem capability?_eq_findSome? (made : ∀ e ∈ r.entries, e.Made) (t : TypeRef) (name : String) :
    r.capability? t name = (r.lineage t).findSome? (fun u => r.declaredCapability? u name) := by
  unfold capability? declaredCapability?
  congr 1
  funext u
  cases hentry : r.entryOf? u with
  | none => rfl
  | some e =>
      obtain ⟨id, -, hfind⟩ := Option.bind_eq_some_iff.1 hentry
      have hmade := made e (List.mem_of_find?_eq_some hfind)
      show (if e.flags.bindable = true then e.capability? name else none) = e.capability? name
      split
      · rfl
      · rename_i hnot
        have hnil : e.capabilities = [] := by
          by_contra hne
          exact hnot (hmade.bindable hne)
        rw [TypeEntry.capability?, hnil]
        rfl

/-- What is found under a name has that name. -/
theorem name_of_capability? (h : r.capability? t name = some c) : c.name = name := by
  obtain ⟨u, -, hc⟩ := exists_of_capability?_eq_some h
  obtain ⟨e, -, hc⟩ := Option.bind_eq_some_iff.1 hc
  exact beq_iff_eq.1 (List.find?_some (p := fun d : Capability => d.name == name) hc)

/-- **The two lookups agree** on what a type has under a name. -/
theorem capability?_eq_some_iff (made : ∀ e ∈ r.entries, e.Made) :
    r.capability? t name = some c ↔ c ∈ r.capabilities t ∧ c.name = name := by
  constructor
  · intro h
    obtain rfl := name_of_capability? h
    rw [mem_capabilities, ← capability?_eq_findSome? made]
    exact ⟨h, rfl⟩
  · rintro ⟨hmem, rfl⟩
    rwa [mem_capabilities, ← capability?_eq_findSome? made] at hmem

/-- Keeping the first of each name repeats no name. -/
theorem nodup_names_foldl (cs : List Capability) : ∀ seen : List Capability,
    (seen.map Capability.name).Nodup →
    ((cs.foldl (fun seen c => if seen.any (fun s => s.name == c.name) then seen else seen ++ [c])
      seen).map Capability.name).Nodup := by
  induction cs with
  | nil => exact fun seen h => h
  | cons c cs ih =>
      intro seen h
      rw [List.foldl_cons]
      split
      · exact ih seen h
      · rename_i hnew
        refine ih _ ?_
        rw [List.map_append, List.nodup_append]
        refine ⟨h, List.pairwise_singleton _ _, fun x hx y hy hxy => hnew ?_⟩
        obtain ⟨s, hs, rfl⟩ := List.mem_map.1 hx
        rw [List.mem_singleton.1 hy] at hxy
        exact List.any_eq_true.2 ⟨s, hs, beq_iff_eq.2 hxy⟩

/-- **No name is listed twice.** -/
theorem nodup_names_capabilities (r : Registry) (t : TypeRef) :
    ((r.capabilities t).map Capability.name).Nodup :=
  nodup_names_foldl _ [] List.nodup_nil

/-- **Metadata and bindings find the same property** of a control. -/
theorem property?_controlMetadata (made : ∀ e ∈ r.entries, e.Made) {m : ControlMetadata}
    (h : r.controlMetadata? t = some m) : m.property? name = r.capability? t name := by
  have hproperties : m.properties = r.capabilities t := by
    unfold controlMetadata? at h
    dsimp only at h
    split at h
    · rw [← Option.some.inj h]
    · cases h
  unfold ControlMetadata.property?
  rw [hproperties]
  refine Option.ext fun c => ?_
  rw [capability?_eq_some_iff made]
  constructor
  · intro hfind
    refine ⟨List.mem_of_find?_eq_some hfind, ?_⟩
    exact beq_iff_eq.1 (List.find?_some (p := fun d : Capability => d.name == name) hfind)
  · rintro ⟨hmem, rfl⟩
    exact find?_capabilities_of_mem hmem

/-! ## §3. The nearest level. -/

/-- **The nearest declaration of a name**: no type of a nearer level declares it, and no type
before this one in its own level. -/
def NearestDeclaration (r : Registry) (t : TypeRef) (name : String) (c : Capability) : Prop :=
  ∃ nearer level farther before u after, r.levels t = nearer ++ level :: farther
    ∧ level = before ++ u :: after ∧ r.declaredCapability? u name = some c
    ∧ ∀ v ∈ nearer.flatten ++ before, r.declaredCapability? v name = none

/-- The first declaration along the levels is that of the nearest of them. -/
theorem findSome?_lineage_iff :
    (r.lineage t).findSome? (fun u => r.declaredCapability? u name) = some c
      ↔ r.NearestDeclaration t name c := by
  have hlevels : (r.lineage t).findSome? (fun u => r.declaredCapability? u name)
      = (r.levels t).findSome? (fun level =>
          level.findSome? (fun u => r.declaredCapability? u name)) := by
    unfold lineage
    rw [← List.head?_filterMap, List.filterMap_flatten, List.head?_flatten, List.findSome?_map]
    congr 1
    funext level
    exact List.head?_filterMap
  unfold NearestDeclaration
  rw [hlevels, List.findSome?_eq_some_iff]
  constructor
  · rintro ⟨nearer, level, farther, hlevels, hfound, hnearer⟩
    obtain ⟨before, u, after, hlevel, hu, hbefore⟩ := List.findSome?_eq_some_iff.1 hfound
    refine ⟨nearer, level, farther, before, u, after, hlevels, hlevel, hu, ?_⟩
    refine List.forall_mem_append.2 ⟨fun v hv => ?_, hbefore⟩
    obtain ⟨near, hnear, hv⟩ := List.mem_flatten.1 hv
    exact List.findSome?_eq_none_iff.1 (hnearer near hnear) v hv
  · rintro ⟨nearer, level, farther, before, u, after, hlevels, hlevel, hu, hnone⟩
    obtain ⟨hnearer, hbefore⟩ := List.forall_mem_append.1 hnone
    refine ⟨nearer, level, farther, hlevels, ?_, fun near hnear => ?_⟩
    · exact List.findSome?_eq_some_iff.2 ⟨before, u, after, hlevel, hu, hbefore⟩
    · exact List.findSome?_eq_none_iff.2 fun v hv =>
        hnearer v (List.mem_flatten.2 ⟨near, hnear, hv⟩)

/-- **The two lookups of capability properties agree.**  What is found under a name is the one
property of that name among all of the type; it is the declaration at the nearest level of
supertypes; and no name is listed twice. -/
theorem capability?_nearest (made : ∀ e ∈ r.entries, e.Made) (t : TypeRef) (name : String) :
    (∀ c, r.capability? t name = some c ↔ c ∈ r.capabilities t ∧ c.name = name
        ∧ ∀ other ∈ r.capabilities t, other.name = name → other = c)
      ∧ (∀ c, r.capability? t name = some c ↔ r.NearestDeclaration t name c)
      ∧ ((r.capabilities t).map Capability.name).Nodup := by
  refine ⟨fun c => ?_, fun c => ?_, nodup_names_capabilities r t⟩
  · constructor
    · intro h
      obtain ⟨hmem, hname⟩ := (capability?_eq_some_iff made).1 h
      refine ⟨hmem, hname, fun other hother hsame => ?_⟩
      have hfound := (capability?_eq_some_iff made).2 ⟨hother, hsame⟩
      exact Option.some.inj (hfound.symm.trans h)
    · rintro ⟨hmem, hname, -⟩
      exact (capability?_eq_some_iff made).2 ⟨hmem, hname⟩
  · rw [capability?_eq_findSome? made, findSome?_lineage_iff]

/-- Two bases at one distance, of which the first declares a name again that the second has too,
and a base of the first that declares all names. -/
def panelEntries : List TypeEntry :=
  [(TypeEntry.declare "App.Box" "App")
     |>.addCapability "Title" .object .standard
     |>.addCapability "Width" .object .standard,
   ((TypeEntry.declare "App.Frame" "App").derives (.simple "App.Box"))
     |>.addCapability "Title" .string .standard,
   (TypeEntry.declare "App.Sized" "App")
     |>.addCapability "Width" .int32 .standard
     |>.addCapability "Title" .int32 .standard,
   ((TypeEntry.declare "App.Panel" "App").derives (.simple "App.Frame"))
     |>.derives (.simple "App.Sized")]

def panelTypes : Registry := Registry.empty.insertAll panelEntries

theorem made_panelTypes : ∀ e ∈ panelTypes.entries, e.Made := by
  refine List.forall_mem_cons.2 ⟨?_, List.forall_mem_cons.2 ⟨?_, List.forall_mem_cons.2
    ⟨?_, List.forall_mem_singleton.2 ?_⟩⟩⟩
  · exact ((TypeEntry.Made.declare _ _).capability _ _ _).capability _ _ _
  · exact ((TypeEntry.Made.declare _ _).derives _).capability _ _ _
  · exact ((TypeEntry.Made.declare _ _).capability _ _ _).capability _ _ _
  · exact ((TypeEntry.Made.declare _ _).derives _).derives _

/-- Of both declarations at the nearest level the first base's is found, and the width is that of
the second base, which is nearer than that of the base's base. -/
theorem capability?_nearest_panel : (∀ e ∈ panelTypes.entries, e.Made)
    ∧ panelTypes.NearestDeclaration (.simple "App.Panel") "Title"
        ⟨"Title", .string, .simple "App.Frame", .standard, none⟩
    ∧ panelTypes.NearestDeclaration (.simple "App.Panel") "Width"
        ⟨"Width", .int32, .simple "App.Sized", .standard, none⟩ := by
  obtain ⟨-, hTitle, -⟩ := capability?_nearest made_panelTypes (.simple "App.Panel") "Title"
  obtain ⟨-, hWidth, -⟩ := capability?_nearest made_panelTypes (.simple "App.Panel") "Width"
  exact ⟨made_panelTypes, (hTitle _).1 (by decide +kernel), (hWidth _).1 (by decide +kernel)⟩

end Registry

end BoundMarkup
