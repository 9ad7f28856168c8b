import SegmentFlow.Proofs.Canvas.Loaded
import SegmentFlow.Proofs.Json.Scanned
import SegmentFlow.Proofs.Workflow.Saved
/-!
# What is loaded can be saved

A document is migrated and then read. Migration moves values and invents none, so the numbers of a
document stay finite; and whatever is read from a document of finite numbers is a workflow of which
nothing is lost when it is saved.
-/

namespace SegmentFlow

open Migration Shape SegmentFlow.Field

namespace Migration

/-! ### Numbers stay finite -/

/-- The numbers of an object stay finite when its members are changed. -/
def KeepsFinite (change : Members → Members) : Prop :=
  ∀ ms, (Tree.obj ms : Json).FiniteNumbers → (Tree.obj (change ms) : Json).FiniteNumbers

variable {change : Members → Members} {t : Json}

theorem KeepsFinite.onObject (hchange : KeepsFinite change) (ht : t.FiniteNumbers) :
    (onObject change t).FiniteNumbers := by
  cases t with
  | obj ms => exact hchange ms ht
  | _ => exact ht

theorem KeepsFinite.onObjects (hchange : KeepsFinite change) (ht : t.FiniteNumbers) :
    (onObjects change t).FiniteNumbers := by
  cases t with
  | arr ts =>
      refine Tree.finiteNumbers_arr_iff.2 (List.forall_mem_map.2 fun t hmem => ?_)
      exact hchange.onObject (Tree.finiteNumbers_arr_iff.1 ht t hmem)
  | _ => exact ht

theorem keepsFinite_renameAll (renames : Renames) : KeepsFinite (renameAll renames) := by
  intro ms hms
  rw [Tree.finiteNumbers_obj_iff] at hms ⊢
  intro m hm
  obtain ⟨m', hm', heq⟩ := exists_of_mem_renameAll hm
  exact heq ▸ hms m' hm'

theorem keepsFinite_map {f : String → Json → Json}
    (hf : ∀ n t, t.FiniteNumbers → (f n t).FiniteNumbers) :
    KeepsFinite fun ms => ms.map fun m => (m.1, f m.1 m.2) := by
  intro ms hms
  rw [Tree.finiteNumbers_obj_iff] at hms ⊢
  exact List.forall_mem_map.2 fun m hm => hf m.1 m.2 (hms m hm)

theorem keepsFinite_migrateData (isStart : Bool) : KeepsFinite (migrateData isStart) := by
  intro ms hms
  rw [migrateData_eq_map]
  refine keepsFinite_map (fun n t ht => ?_) ms hms
  rw [migrateDatum]
  split
  · exact (keepsFinite_renameAll _).onObjects ht
  · split
    · exact (keepsFinite_renameAll _).onObject ht
    · exact ht

/-- The type that a node is given comes from its data. -/
theorem keepsFinite_withType : KeepsFinite withType := by
  intro ms hms
  rw [withType]
  split
  · next data _ hdata =>
      split
      · next kind hkind =>
          rw [Tree.finiteNumbers_obj_iff] at hms ⊢
          intro m hm
          obtain rfl | hm := Dictionary.mem_insert hm
          · have hmembers := hms _ (Dictionary.mem_of_lookup_eq_some hdata)
            rw [Tree.finiteNumbers_obj_iff] at hmembers
            exact hmembers _ (Dictionary.mem_of_lookup_eq_some hkind)
          · exact hms m hm
      · exact hms
  · exact hms

theorem keepsFinite_migrateNode : KeepsFinite migrateNode := by
  intro ms hms
  have hwithType := keepsFinite_withType ms hms
  rw [migrateNode_eq, Dictionary.update]
  rw [Tree.finiteNumbers_obj_iff] at hwithType ⊢
  refine List.forall_mem_map.2 fun m hm => ?_
  split
  · exact (keepsFinite_migrateData _).onObject (hwithType m hm)
  · exact hwithType m hm

theorem keepsFinite_migrateMembers : KeepsFinite migrateMembers := by
  intro ms hms
  rw [migrateMembers_eq_map]
  refine keepsFinite_map (fun n t ht => ?_) _ (keepsFinite_renameAll _ ms hms)
  rw [migrateMember]
  split
  · exact keepsFinite_migrateNode.onObjects ht
  · split
    · exact (keepsFinite_renameAll _).onObjects ht
    · exact ht

end Migration

namespace Workflow

variable {w : Workflow} {ms : Members} {d : Json}

/-! ### What a document is read as -/

theorem exists_of_value_ofDocument (h : (ofDocument d).value = .ok w) :
    ∃ ms, d = .obj ms ∧ (read (.obj (migrateMembers ms) : Json)).value = .ok w := by
  cases d with
  | obj ms =>
      refine ⟨ms, rfl, ?_⟩
      change Except.mapError _ (read (.obj (migrateMembers ms) : Json)).value = _ at h
      cases hread : (read (.obj (migrateMembers ms) : Json)).value with
      | error e => rw [hread] at h; nomatch h
      | ok w' => rw [hread] at h; exact congrArg _ (Except.ok.inj h)
  | _ => nomatch h

theorem exists_of_value_read_obj (h : (read (.obj ms : Json)).value = .ok w) :
    ∃ d w', (readMembers fields skip [] Draft.start ms).value = .ok d
      ∧ d.finish .empty = some w' ∧ (Graph.read (.obj (graphMembers ms))).value = .ok w.graph
      ∧ w = { w' with graph := w.graph } := by
  rw [read_obj] at h
  obtain ⟨d, hd, h⟩ := Reading.exists_of_value_bind_eq_ok h
  obtain ⟨w', hw', h⟩ := Reading.exists_of_value_bind_eq_ok h
  obtain ⟨graph, hgraph, rfl⟩ := Reading.exists_of_value_map_eq_ok h
  exact ⟨d, w', hd, eq_some_of_value_finished hw', hgraph, rfl⟩

/-- The instants that have been read exist. -/
def Draft.IsValid (d : Draft) : Prop :=
  (∀ t ∈ d.createdAt, t.IsValid) ∧ (∀ t ∈ d.updatedAt, t.IsValid)
    ∧ ∀ t ∈ d.lastTriggered, t.IsValid

theorem Draft.isValid_start : Draft.start.IsValid := by
  simp [Draft.IsValid, Draft.start]

theorem keeps_isValid :
    ∀ f ∈ (fields : List (Field Empty Draft)), f.Keeps (fun _ _ => True) Draft.IsValid := by
  have hinstant : (Instant.read : Shape Empty Instant).Yields (fun _ => True) Instant.IsValid :=
    yields_parsed fun _ _ => Instant.isValid_of_parse
  simp only [fields, List.forall_mem_cons]
  refine ⟨?_, ?_, ?_, ?_, keeps_of hinstant fun t ht d hd => ⟨by simpa using ht, hd.2⟩,
    keeps_of hinstant fun t ht d hd => ⟨hd.1, by simpa using ht, hd.2.2⟩, ?_,
    keeps_of (yields_optional fun t _ => hinstant t trivial) fun x hx d hd => ⟨hd.1, hd.2.1, hx⟩,
    by simp⟩ <;>
  exact keeps_of_put fun _ _ hd => hd

/-- What is read from a document is lost in no part when it is written. -/
theorem isStorable_of_value_ofDocument (hd : d.FiniteNumbers) (h : (ofDocument d).value = .ok w) :
    w.IsStorable := by
  obtain ⟨ms, rfl, hread⟩ := exists_of_value_ofDocument h
  obtain ⟨d, w', hdraft, hfinish, hgraph, hw⟩ := exists_of_value_read_obj hread
  have hvalid : d.IsValid :=
    readMembers_keeps keeps_isValid (fun _ _ => trivial) Draft.isValid_start hdraft
  have hmembers : (Tree.obj (graphMembers (migrateMembers ms)) : Tree SetAside).FiniteNumbers := by
    have hmigrated := Tree.finiteNumbers_obj_iff.1 (keepsFinite_migrateMembers ms hd)
    refine Tree.finiteNumbers_obj_iff.2 (List.forall_mem_map.2 fun m hm => ?_)
    exact Tree.finiteNumbers_lift _ (hmigrated m (List.mem_of_mem_filter hm))
  have hnodes := Graph.yields_isStorable _ hmembers _ hgraph
  simp only [Draft.finish, Option.bind_eq_bind, Option.bind_eq_some_iff] at hfinish
  obtain ⟨id, -, name, -, trigger, -, createdAt, hcreated, updatedAt, hupdated, hw'⟩ := hfinish
  obtain rfl := Option.some.inj hw'
  rw [hw]
  exact ⟨hnodes, hvalid.1 createdAt hcreated, hvalid.2.1 updatedAt hupdated, hvalid.2.2⟩

theorem isStorable_of_value_load {text : String} (h : (load text).value = .ok w) :
    w.IsStorable := by
  rw [load] at h
  split at h
  · next d hparse =>
      have hd : d.FiniteNumbers := (Tree.isStored_and_finiteNumbers_of_parse hparse).2
      exact isStorable_of_value_ofDocument hd h
  · cases h

/-- A workflow that was loaded from a text can be saved and opened again. -/
theorem value_ofDocument_of_value_load {text : String} (h : (load text).value = .ok w) :
    (ofDocument w.toTree.normal).value = .ok w.migrated :=
  value_ofDocument_toTree (isStorable_of_value_load h)

end Workflow

end SegmentFlow
