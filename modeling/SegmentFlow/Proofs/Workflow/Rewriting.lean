import SegmentFlow.Proofs.Workflow.Saved
/-!
# All that migration does to a document

What becomes of a document is told here without the steps that migration takes: which member of the
result comes from which member of the document, level by level, and what becomes of its value. Where
nothing is said of a value it stays as it is, at any depth. Nothing is left open by that, so there is
one result at most that it fits, and what it fits as a result it also fits when it is migrated again.
-/

namespace SegmentFlow.Migration

/-! ### What becomes of a value -/

/-- An object becomes another one as `R` says, and any other value stays. -/
inductive ObjectBecomes (R : Members → Members → Prop) : Json → Json → Prop
  | object {ms ms' : Members} (h : R ms ms') : ObjectBecomes R (.obj ms) (.obj ms')
  | other {t : Json} (h : ∀ ms, t ≠ .obj ms) : ObjectBecomes R t t

/-- The objects in an array become others as `R` says. All other items stay, and so does a value that
is no array. -/
inductive ObjectsBecome (R : Members → Members → Prop) : Json → Json → Prop
  | array {ts ts' : List Json} (h : List.Forall₂ (ObjectBecomes R) ts ts') :
    ObjectsBecome R (.arr ts) (.arr ts')
  | other {t : Json} (h : ∀ ts, t ≠ .arr ts) : ObjectsBecome R t t

/-- The old names are gone, a current name has what it had, or else what its old name had, and the
other members stand where they stood. What becomes of a value under a name, `R` says. -/
structure MembersBecome (renames : Renames) (R : String → Json → Json → Prop) (ms ms' : Members) :
    Prop where
  gone : ∀ r ∈ renames, ms'.lookup r.1 = none
  current : ∀ r ∈ renames,
    Option.Rel (R r.2) ((ms.lookup r.2).or (ms.lookup r.1)) (ms'.lookup r.2)
  other : ∀ n, n ∉ renames.map Prod.fst → n ∉ renames.map Prod.snd →
    Option.Rel (R n) (ms.lookup n) (ms'.lookup n)

/-- The value stays, whatever its name. -/
def Stays (_ : String) (t t' : Json) : Prop :=
  t' = t

/-! ### The levels of a document -/

/-- The conditions of a node are respelled, whatever its type; its config only if it is a start
node. -/
def DatumBecomes (isStart : Bool) (name : String) : Json → Json → Prop :=
  if name = "conditions" then ObjectsBecome (MembersBecome conditionRenames Stays)
  else if name = "config" ∧ isStart = true then
    ObjectBecomes (MembersBecome startConfigRenames Stays)
  else Stays name

def DataBecomes (isStart : Bool) : Members → Members → Prop :=
  MembersBecome [] (DatumBecomes isStart)

/-- A node without a type gets the one that its data names. It is the type that it has then which makes
it a start node. -/
structure NodeBecomes (node node' : Members) : Prop where
  type : node'.lookup "type" = (node.lookup "type").or (dataType? node)
  data : Option.Rel (ObjectBecomes (DataBecomes (node'.lookup "type" = some (.str "start"))))
    (node.lookup "data") (node'.lookup "data")
  other : ∀ n, n ≠ "type" → n ≠ "data" → node'.lookup n = node.lookup n

def MemberBecomes (name : String) : Json → Json → Prop :=
  if name = "nodes" then ObjectsBecome NodeBecomes
  else if name = "edges" then ObjectsBecome (MembersBecome edgeRenames Stays)
  else Stays name

def DocumentBecomes : Members → Members → Prop :=
  MembersBecome workflowRenames MemberBecomes

/-! ### Descriptions of a change -/

section

variable {α : Type} {Stored : α → Prop} {R R' : α → α → Prop} {change change' : α → α}

/-- `R` describes a change of stored values in full: what a value becomes by `R` is what the change
makes of it and nothing else, and from there it only becomes itself. -/
structure Describes (Stored : α → Prop) (R : α → α → Prop) (change : α → α) : Prop where
  fits : ∀ x, R x (change x)
  stored : ∀ x, Stored x → Stored (change x)
  unique : ∀ x y z, Stored y → Stored z → R x y → R x z → y = z
  settled : ∀ x y, R x y → R y y

namespace Describes

theorem change_change (h : Describes Stored R change) {x : α} (hx : Stored x) :
    change (change x) = change x := by
  have hchanged := h.stored x hx
  exact h.unique (change x) _ _ (h.stored _ hchanged) hchanged (h.fits _) (h.settled _ _ (h.fits x))

theorem ite {c : Prop} [Decidable c] (h : Describes Stored R change)
    (h' : Describes Stored R' change') :
    Describes Stored (if c then R else R') fun x => if c then change x else change' x := by
  by_cases hc : c
  · simpa only [if_pos hc] using h
  · simpa only [if_neg hc] using h'

theorem option (h : Describes Stored R change) :
    Describes (fun x? : Option α => ∀ x ∈ x?, Stored x) (Option.Rel R) (Option.map change) where
  fits x? := by
    cases x? with
    | none => exact .none
    | some x => exact .some (h.fits x)
  stored x? hx? := by
    intro y hy
    obtain ⟨x, hx, rfl⟩ := Option.map_eq_some_iff.1 hy
    exact h.stored x (hx? x hx)
  unique x? y? z? hy? hz? hleft hright := by
    cases hleft with
    | none =>
        cases hright with
        | none => rfl
    | some hleft =>
        cases hright with
        | some hright => rw [h.unique _ _ _ (hy? _ rfl) (hz? _ rfl) hleft hright]
  settled x? y? hbecomes := by
    cases hbecomes with
    | none => exact .none
    | some hbecomes => exact .some (h.settled _ _ hbecomes)

theorem list (h : Describes Stored R change) :
    Describes (fun xs : List α => ∀ x ∈ xs, Stored x) (List.Forall₂ R) (List.map change) where
  fits xs := List.forall₂_map_right_iff.2 (List.forall₂_same.2 fun x _ => h.fits x)
  stored xs hxs := List.forall_mem_map.2 fun x hx => h.stored x (hxs x hx)
  unique xs ys zs hys hzs hleft hright := by
    induction hleft generalizing zs with
    | nil =>
        cases hright with
        | nil => rfl
    | cons hhead htail ih =>
        cases hright with
        | cons hhead' htail' =>
            rw [List.forall_mem_cons] at hys hzs
            rw [h.unique _ _ _ hys.1 hzs.1 hhead hhead', ih _ hys.2 hzs.2 htail']
  settled xs ys hbecome := by
    induction hbecome with
    | nil => exact .nil
    | cons hhead _ ih => exact .cons (h.settled _ _ hhead) ih

end Describes

end

/-- A change of a value in its stored form. -/
abbrev DescribesValue : (Json → Json → Prop) → (Json → Json) → Prop :=
  Describes Tree.IsStored

/-- A change of the members of an object in its stored form. -/
abbrev DescribesMembers : (Members → Members → Prop) → (Members → Members) → Prop :=
  Describes fun ms => (Tree.obj ms : Json).IsStored

theorem describes_stays (name : String) : DescribesValue (Stays name) fun t => t where
  fits _ := rfl
  stored _ ht := ht
  unique _ _ _ _ _ h h' := h.trans h'.symm
  settled _ _ _ := rfl

variable {R : Members → Members → Prop} {S : String → Json → Json → Prop}
  {change : Members → Members} {changeValue : String → Json → Json} {renames : Renames}

theorem DescribesMembers.onObject (h : DescribesMembers R change) :
    DescribesValue (ObjectBecomes R) (onObject change) where
  fits t := by
    cases t with
    | obj ms => exact .object (h.fits ms)
    | _ => exact .other nofun
  stored t ht := by
    cases t with
    | obj ms => exact h.stored ms ht
    | _ => exact ht
  unique t u v hu hv hleft hright := by
    cases hleft with
    | object hleft =>
        cases hright with
        | object hright => rw [h.unique _ _ _ hu hv hleft hright]
        | other hother => exact absurd rfl (hother _)
    | other hother =>
        cases hright with
        | object => exact absurd rfl (hother _)
        | other => rfl
  settled t u hbecomes := by
    cases hbecomes with
    | object hms => exact .object (h.settled _ _ hms)
    | other hother => exact .other hother

theorem DescribesMembers.onObjects (h : DescribesMembers R change) :
    DescribesValue (ObjectsBecome R) (onObjects change) where
  fits t := by
    cases t with
    | arr ts => exact .array (h.onObject.list.fits ts)
    | _ => exact .other nofun
  stored t ht := by
    cases t with
    | arr ts => exact Tree.isStored_arr_iff.2 (h.onObject.list.stored ts (Tree.isStored_arr_iff.1 ht))
    | _ => exact ht
  unique t u v hu hv hleft hright := by
    cases hleft with
    | array hleft =>
        cases hright with
        | array hright =>
            rw [Tree.isStored_arr_iff] at hu hv
            rw [h.onObject.list.unique _ _ _ hu hv hleft hright]
        | other hother => exact absurd rfl (hother _)
    | other hother =>
        cases hright with
        | array => exact absurd rfl (hother _)
        | other => rfl
  settled t u hbecomes := by
    cases hbecomes with
    | array hts => exact .array (h.onObject.list.settled _ _ hts)
    | other hother => exact .other hother

/-! ### Members -/

theorem describesMembers_become (hrenames : renames.Separate)
    (h : ∀ name, DescribesValue (S name) (changeValue name)) :
    DescribesMembers (MembersBecome renames S) fun ms =>
      (renameAll renames ms).map fun m => (m.1, changeValue m.1 m.2) where
  fits ms := by
    refine ⟨fun r hr => ?_, fun r hr => ?_, fun n hfst hsnd => ?_⟩
    · rw [Dictionary.lookup_map, lookup_renameAll_of_mem hrenames (List.mem_map_of_mem hr),
        Option.map_none]
    · rw [Dictionary.lookup_map, lookup_renameAll_current hrenames hr]
      exact (h r.2).option.fits _
    · rw [Dictionary.lookup_map, lookup_renameAll_other hrenames hfst hsnd]
      exact (h n).option.fits _
  stored ms hms := by
    have hrenamed : (Tree.obj (renameAll renames ms) : Json).IsStored :=
      isStored_onObject_renameAll hms
    obtain ⟨hsorted, hvalues⟩ := Tree.isStored_obj_iff.1 hrenamed
    refine Tree.isStored_obj_iff.2 ⟨?_, List.forall_mem_map.2 fun m hm => ?_⟩
    · rw [Dictionary.sorted_iff_names, List.map_map]
      exact Dictionary.sorted_iff_names.1 hsorted
    · exact (h m.1).stored m.2 (hvalues m hm)
  unique ms ms' ms'' hms' hms'' hleft hright := by
    rw [Tree.isStored_obj_iff_lookup] at hms' hms''
    refine hms'.1.eq_of_lookup_eq hms''.1 fun n => ?_
    have hunique := (h n).option.unique
    by_cases hfst : n ∈ renames.map Prod.fst
    · obtain ⟨r, hr, rfl⟩ := List.mem_map.1 hfst
      rw [hleft.gone r hr, hright.gone r hr]
    · by_cases hsnd : n ∈ renames.map Prod.snd
      · obtain ⟨r, hr, rfl⟩ := List.mem_map.1 hsnd
        exact hunique _ _ _ (hms'.2 _) (hms''.2 _) (hleft.current r hr) (hright.current r hr)
      · exact hunique _ _ _ (hms'.2 n) (hms''.2 n) (hleft.other n hfst hsnd)
          (hright.other n hfst hsnd)
  settled ms ms' hbecome := by
    refine ⟨hbecome.gone, fun r hr => ?_, fun n hfst hsnd => ?_⟩
    · rw [hbecome.gone r hr, Option.or_none]
      exact (h r.2).option.settled _ _ (hbecome.current r hr)
    · exact (h n).option.settled _ _ (hbecome.other n hfst hsnd)

theorem describesMembers_renamed (hrenames : renames.Separate) :
    DescribesMembers (MembersBecome renames Stays) (renameAll renames) := by
  simpa using describesMembers_become hrenames describes_stays

/-! ### Level by level -/

theorem describes_datum (isStart : Bool) (name : String) :
    DescribesValue (DatumBecomes isStart name) (migrateDatum isStart name) :=
  (describesMembers_renamed separate_conditionRenames).onObjects.ite <|
    (describesMembers_renamed separate_startConfigRenames).onObject.ite (describes_stays name)

theorem describes_data (isStart : Bool) :
    DescribesMembers (DataBecomes isStart) (migrateData isStart) := by
  have hdata : migrateData isStart = fun data =>
      (renameAll [] data).map fun m => (m.1, migrateDatum isStart m.1 m.2) :=
    funext fun data => migrateData_eq_map isStart
  rw [hdata]
  exact describesMembers_become (by decide) (describes_datum isStart)

/-- What becomes of the data of a node leaves the type that it names. -/
theorem dataType?_eq {node node' : Members} {isStart : Bool}
    (h : Option.Rel (ObjectBecomes (DataBecomes isStart)) (node.lookup "data")
      (node'.lookup "data")) : dataType? node' = dataType? node := by
  rw [dataType?, dataType?]
  generalize node.lookup "data" = data? at h
  generalize node'.lookup "data" = data?' at h
  cases h with
  | none => rfl
  | some h =>
      cases h with
      | other => rfl
      | @object data data' h =>
          have htype : Option.Rel (Stays "type") (data.lookup "type") (data'.lookup "type") :=
            h.other "type" List.not_mem_nil List.not_mem_nil
          show data'.lookup "type" = data.lookup "type"
          generalize data.lookup "type" = kind? at htype
          generalize data'.lookup "type" = kind?' at htype
          cases htype with
          | none => rfl
          | some hstays => rw [hstays]

theorem isStored_of_dataType?_eq_some {node : Members} {kind : Json}
    (hnode : ∀ n, ∀ t ∈ node.lookup n, t.IsStored) (h : dataType? node = some kind) :
    kind.IsStored := by
  rw [dataType?] at h
  split at h
  · next data hdata =>
      have hstored : (Tree.obj data : Json).IsStored := hnode "data" _ hdata
      exact (Tree.isStored_obj_iff_lookup.1 hstored).2 "type" kind h
  · cases h

theorem describes_node : DescribesMembers NodeBecomes migrateNode where
  fits node := by
    have htype : (migrateNode node).lookup "type" = (withType node).lookup "type" := by
      rw [lookup_migrateNode, if_neg (by decide)]
    refine ⟨?_, ?_, fun n hntype hndata => ?_⟩
    · rw [htype, lookup_withType, if_pos rfl]
    · have hstart : decide ((migrateNode node).lookup "type" = some (.str "start"))
          = isStart node := by
        rw [htype]
        rfl
      rw [hstart, lookup_migrateNode, if_pos rfl]
      exact (describes_data _).onObject.option.fits _
    · rw [lookup_migrateNode, if_neg hndata, lookup_withType, if_neg hntype]
  stored node hnode := by
    rw [Tree.isStored_obj_iff_lookup] at hnode ⊢
    refine ⟨sorted_migrateNode hnode.1, fun n => ?_⟩
    rw [lookup_migrateNode]
    split
    · exact (describes_data _).onObject.option.stored _ (hnode.2 "data")
    · rw [lookup_withType]
      split
      · intro kind hkind
        obtain htype | ⟨-, hdata⟩ := Option.or_eq_some_iff.1 hkind
        · exact hnode.2 "type" kind htype
        · exact isStored_of_dataType?_eq_some hnode.2 hdata
      · exact hnode.2 n
  unique node node' node'' hnode' hnode'' hleft hright := by
    rw [Tree.isStored_obj_iff_lookup] at hnode' hnode''
    refine hnode'.1.eq_of_lookup_eq hnode''.1 fun n => ?_
    have htype : node'.lookup "type" = node''.lookup "type" := by rw [hleft.type, hright.type]
    by_cases hntype : n = "type"
    · rw [hntype, htype]
    · by_cases hndata : n = "data"
      · have hdata := hleft.data
        rw [htype] at hdata
        rw [hndata]
        exact (describes_data _).onObject.option.unique _ _ _ (hnode'.2 _) (hnode''.2 _) hdata
          hright.data
      · rw [hleft.other n hntype hndata, hright.other n hntype hndata]
  settled node node' hbecomes := by
    refine ⟨?_, (describes_data _).onObject.option.settled _ _ hbecomes.data, fun _ _ _ => rfl⟩
    -- a node that has no type yet has none in its data either, and its data keeps it so
    rw [dataType?_eq hbecomes.data, hbecomes.type, Option.or_assoc, Option.or_self]

theorem describes_member (name : String) :
    DescribesValue (MemberBecomes name) (migrateMember name) :=
  describes_node.onObjects.ite <|
    (describesMembers_renamed separate_edgeRenames).onObjects.ite (describes_stays name)

theorem describes_document : DescribesMembers DocumentBecomes migrateMembers := by
  have hdocument : migrateMembers = fun ms =>
      (renameAll workflowRenames ms).map fun m => (m.1, migrateMember m.1 m.2) :=
    funext fun ms => migrateMembers_eq_map
  rw [hdocument]
  exact describesMembers_become separate_workflowRenames describes_member

/-- Migration fails on no object. What becomes of one is said in full by `DocumentBecomes`, and
migrating the result again changes nothing. -/
theorem migrate_rewrites_exactly (ms : Members) (hms : (Tree.obj ms : Json).IsStored) :
    ∃ ms', migrate (.obj ms) = .ok (.obj ms')
      ∧ (Tree.obj ms' : Json).IsStored
      ∧ DocumentBecomes ms ms'
      ∧ (∀ ms'', (Tree.obj ms'' : Json).IsStored → DocumentBecomes ms ms'' → ms'' = ms')
      ∧ migrate (.obj ms') = .ok (.obj ms') := by
  have hstored := describes_document.stored ms hms
  have hfits := describes_document.fits ms
  refine ⟨migrateMembers ms, rfl, hstored, hfits, fun ms'' hms'' hbecome => ?_, ?_⟩
  · exact describes_document.unique _ _ _ hms'' hstored hbecome hfits
  · rw [migrate, describes_document.change_change hms]

/-! ### A document that is partly old -/

def mixedDocument : Members :=
  [("actions", .arr
      [.obj
        [("data", .obj
          [("conditions", .arr [.obj [("fieldType", .str "number")], .null]),
            ("config", .obj [("merchantId", .str "old"), ("merchant_id", .str "new")]),
            ("type", .str "start")])],
        .obj
        [("data", .obj [("config", .obj [("merchantId", .str "m")])]), ("type", .str "action")],
        .str "merchantId"]),
    ("createdAt", .str "2024"), ("created_at", .str "2025"),
    ("edges", .arr [.obj [("sourceHandle", .str "output")]]),
    ("extra", .obj [("createdAt", .null)]), ("peers", .arr [.null])]

def rewrittenDocument : Members :=
  [("created_at", .str "2025"), ("edges", .arr [.obj [("source_handle", .str "output")]]),
    ("extra", .obj [("createdAt", .null)]),
    ("nodes", .arr
      [.obj
        [("data", .obj
          [("conditions", .arr [.obj [("field_type", .str "number")], .null]),
            ("config", .obj [("merchant_id", .str "new")]), ("type", .str "start")]),
          ("type", .str "start")],
        .obj
        [("data", .obj [("config", .obj [("merchantId", .str "m")])]), ("type", .str "action")],
        .str "merchantId"])]

theorem migrate_mixedDocument :
    (Tree.obj mixedDocument : Json).IsStored
      ∧ migrate (.obj mixedDocument) = .ok (.obj rewrittenDocument)
      ∧ DocumentBecomes mixedDocument rewrittenDocument
      ∧ (∀ ms, (Tree.obj ms : Json).IsStored → DocumentBecomes mixedDocument ms →
          ms = rewrittenDocument)
      ∧ migrate (.obj rewrittenDocument) = .ok (.obj rewrittenDocument) := by
  have hstored : (Tree.obj mixedDocument : Json).IsStored := by
    rw [Tree.IsStored]
    decide +kernel
  have hrewritten : migrate (.obj mixedDocument) = .ok (.obj rewrittenDocument) := by
    decide +kernel
  obtain ⟨ms', hmigrate, -, hbecomes, hunique, hagain⟩ :=
    migrate_rewrites_exactly mixedDocument hstored
  obtain rfl : rewrittenDocument = ms' :=
    Tree.obj.inj (Except.ok.inj (hrewritten.symm.trans hmigrate))
  exact ⟨hstored, hrewritten, hbecomes, hunique, hagain⟩

end SegmentFlow.Migration
