import Mathlib.Data.List.Induction
import SegmentFlow.Proofs.Editor.Steps
/-!
# Refusals and unsaved changes

`Turn` says what one operation makes of the whole editor. A refusal leaves all of it but the notice; an
edit that is accepted is an unsaved change; and of the rest only saving touches the workflow. Whether
there are unsaved changes after a run follows from that by an induction over the run.
-/

namespace SegmentFlow.Editor

namespace Operation

/-- The operations that edit the graph. -/
def IsEdit : Operation → Prop
  | addNode _ | moveNode _ _ | deleteNode _ | setConditions _ _ | connect _ | deleteEdge _
  | ensureStartNode => True
  | selectNode _ | selectEdge _ | validate | compile | dismissNotice | markSaved _ => False

instance (o : Operation) : Decidable o.IsEdit :=
  match o with
  | addNode _ | moveNode _ _ | deleteNode _ | setConditions _ _ | connect _ | deleteEdge _
  | ensureStartNode => isTrue trivial
  | selectNode _ | selectEdge _ | validate | compile | dismissNotice | markSaved _ => isFalse id

def IsSave : Operation → Prop
  | markSaved _ => True
  | _ => False

theorem IsSave.not_isEdit {o : Operation} (hsave : o.IsSave) : ¬ o.IsEdit := by
  cases o with
  | markSaved now => exact id
  | _ => exact hsave.elim

end Operation

/-- The result of an operation that did not do what was asked. It is no refusal to find that a workflow
may not be saved. -/
def Refused (o : Operation) : Result → Prop
  | .refused _ => True
  | .answer yes => o = .ensureStartNode ∧ yes = false
  | .done | .node _ | .edge _ | .queries _ => False

instance (o : Operation) (r : Result) : Decidable (Refused o r) :=
  match r with
  | .refused _ => isTrue trivial
  | .answer yes => inferInstanceAs (Decidable (o = .ensureStartNode ∧ yes = false))
  | .done | .node _ | .edge _ | .queries _ => isFalse id

/-- The notice after a refusal: the message of a rejection that is announced, or else as it was. -/
def noticeAfter (notice : Option String) : Result → Option String
  | .refused (.rejected r) =>
    match r with
    | .startAlreadyConnected _ | .startTargetNotCondition _ | .skipsNodes _ => some r.message
    | .invalidHandle _ _ | .unknownNode _ | .notLeftToRight _ _ => notice
  | _ => notice

theorem advisory?_or (r : Rejection) (notice : Option String) :
    r.advisory?.or notice = noticeAfter notice (.refused (.rejected r)) := by
  cases r <;> rfl

/-- What an operation may make of an editor, with its result. -/
inductive Turn (e : Editor) (o : Operation) : Editor × Result → Prop
  | refused {r : Result} (hedit : o.IsEdit) (hrefused : Refused o r) :
      Turn e o ({ e with notice := noticeAfter e.notice r }, r)
  | edited {e' : Editor} {r : Result} (hedit : o.IsEdit) (haccepted : ¬ Refused o r)
      (hdirty : e'.dirty = true) : Turn e o (e', r)
  | saved {e' : Editor} {r : Result} (hsave : o.IsSave) (haccepted : ¬ Refused o r)
      (hdirty : e'.dirty = false) : Turn e o (e', r)
  | kept {e' : Editor} {r : Result} (hedit : ¬ o.IsEdit) (hsave : ¬ o.IsSave)
      (haccepted : ¬ Refused o r) (hworkflow : e'.workflow = e.workflow)
      (hdirty : e'.dirty = e.dirty) : Turn e o (e', r)

variable (e : Editor)

theorem turn_error (o : Operation) (hedit : o.IsEdit) (error : EditorError)
    (hnotice : noticeAfter e.notice (.refused error) = e.notice) :
    Turn e o (e, .refused error) := by
  have hturn : Turn e o ({ e with notice := noticeAfter e.notice (.refused error) }, .refused error) :=
    .refused hedit trivial
  rwa [hnotice] at hturn

theorem turn_addNode (n : Node) : Turn e (.addNode n) (e.apply (.addNode n)).value := by
  change Turn e _ ((e.addNode n).map _ _)
  rw [addNode]
  split
  · exact e.turn_error (.addNode n) trivial (.duplicateNode n.id) rfl
  · exact .edited trivial (fun hrefused => hrefused) rfl

theorem turn_changeNode {o : Operation} (hedit : o.IsEdit) (id : String) (change : Node → Node) :
    Turn e o ((e.changeNode id change).map (fun e => e) (.of fun _ => .done)) := by
  rw [changeNode]
  split
  · exact .edited hedit (fun hrefused => hrefused) rfl
  · exact e.turn_error o hedit (.unknownNode id) rfl

theorem turn_deleteNode (id : String) :
    Turn e (.deleteNode id) (e.apply (.deleteNode id)).value := by
  change Turn e _ ((e.deleteNode id).map _ _)
  rw [deleteNode]
  split
  · exact e.turn_error (.deleteNode id) trivial (.unknownNode id) rfl
  · split
    · exact e.turn_error (.deleteNode id) trivial (.startNodeLocked id) rfl
    · exact .edited trivial (fun hrefused => hrefused) rfl

theorem turn_connect (c : Connection) : Turn e (.connect c) (e.apply (.connect c)).value := by
  change Turn e _ ((e.connect c).value.map _ _)
  rw [connect, Geometry.checkTraced]
  cases e.geometry.check e.graph c with
  | error r =>
      show Turn e _ ({ e with notice := r.advisory?.or e.notice }, .refused (.rejected r))
      rw [advisory?_or]
      exact .refused trivial trivial
  | ok u => exact .edited trivial (fun hrefused => hrefused) rfl

theorem turn_deleteEdge (id : String) :
    Turn e (.deleteEdge id) (e.apply (.deleteEdge id)).value := by
  change Turn e _ ((e.deleteEdge id).map _ _)
  rw [deleteEdge]
  split
  · exact e.turn_error (.deleteEdge id) trivial (.unknownEdge id) rfl
  · exact .edited trivial (fun hrefused => hrefused) rfl

theorem turn_ensureStartNode : Turn e .ensureStartNode (e.apply .ensureStartNode).value := by
  have hkept : Turn e .ensureStartNode (e, .answer false) :=
    .refused (r := .answer false) trivial ⟨rfl, rfl⟩
  change Turn e _ (e.ensureStartNode.map _ _)
  rw [ensureStartNode]
  split
  · by_cases htaken : (e.graph.node? standardStartNode.id).isSome = true
    · rw [addNode, if_pos htaken]
      exact hkept
    · rw [addNode, if_neg htaken]
      exact .edited trivial (fun hrefused => absurd hrefused.2 (by decide)) rfl
  · exact hkept

theorem turn_apply (o : Operation) : Turn e o (e.apply o).value := by
  cases o with
  | addNode n => exact e.turn_addNode n
  | moveNode id p => exact e.turn_changeNode (o := .moveNode id p) trivial id _
  | deleteNode id => exact e.turn_deleteNode id
  | setConditions id cs => exact e.turn_changeNode (o := .setConditions id cs) trivial id _
  | connect c => exact e.turn_connect c
  | deleteEdge id => exact e.turn_deleteEdge id
  | ensureStartNode => exact e.turn_ensureStartNode
  | selectNode | selectEdge | compile | dismissNotice => exact .kept id id id rfl rfl
  | validate => exact .kept id id (fun h => nomatch h.1) rfl rfl
  | markSaved now => exact .saved trivial id rfl

/-! ### One operation -/

/-- The operation is an edit, and the editor carries it out. -/
def Accepts (o : Operation) : Prop :=
  o.IsEdit ∧ ¬ Refused o (e.apply o).value.2

instance (o : Operation) : Decidable (e.Accepts o) :=
  inferInstanceAs (Decidable (o.IsEdit ∧ ¬ Refused o (e.apply o).value.2))

theorem after_of_refused {o : Operation} (hrefused : Refused o (e.apply o).value.2) :
    e.after o = { e with notice := noticeAfter e.notice (e.apply o).value.2 } := by
  have hturn := e.turn_apply o
  rw [after]
  generalize (e.apply o).value = outcome at hturn hrefused
  cases hturn with
  | refused => rfl
  | edited _ haccepted => exact absurd hrefused haccepted
  | saved _ haccepted => exact absurd hrefused haccepted
  | kept _ _ haccepted => exact absurd hrefused haccepted

theorem dirty_after (o : Operation) :
    (e.after o).dirty = true ↔ e.Accepts o ∨ e.dirty = true ∧ ¬ o.IsSave := by
  have hturn := e.turn_apply o
  rw [after, Accepts]
  generalize (e.apply o).value = outcome at hturn
  cases hturn with
  | refused hedit hrefused =>
      have hsave : ¬ o.IsSave := fun hsave => hsave.not_isEdit hedit
      simp [hrefused, hsave]
  | edited hedit haccepted hdirty => simp [hedit, haccepted, hdirty]
  | saved hsave haccepted hdirty => simp [hsave, hsave.not_isEdit, hdirty]
  | kept hedit hsave haccepted hworkflow hdirty => simp [hedit, hsave, hdirty]

/-- Only an edit that is accepted and saving change the workflow. -/
theorem workflow_after {o : Operation} (haccepts : ¬ e.Accepts o) (hsave : ¬ o.IsSave) :
    (e.after o).workflow = e.workflow := by
  have hturn := e.turn_apply o
  rw [after]
  rw [Accepts] at haccepts
  generalize (e.apply o).value = outcome at hturn haccepts
  cases hturn with
  | refused => rfl
  | edited hedit haccepted => exact absurd ⟨hedit, haccepted⟩ haccepts
  | saved hsaved => exact absurd hsaved hsave
  | kept _ _ _ hworkflow => exact hworkflow

/-! ### Runs -/

/-- The editor after a run on a workflow that it has just opened. -/
def session (workflow : Workflow) (geometry : Geometry) (assembler : Compile.Assembler)
    (operations : List Operation) : Editor :=
  (opening workflow geometry assembler).run operations

theorem run_append (before after : List Operation) :
    e.run (before ++ after) = (e.run before).run after :=
  List.foldl_append

theorem run_concat (operations : List Operation) (o : Operation) :
    e.run (operations ++ [o]) = (e.run operations).after o :=
  e.run_append operations [o]

/-- An edit was accepted in the run, and nothing was saved after it. -/
def EditedSinceSave (operations : List Operation) : Prop :=
  ∃ before o after, operations = before ++ o :: after ∧ (e.run before).Accepts o
    ∧ ∀ a ∈ after, ¬ a.IsSave

theorem editedSinceSave_concat_iff {operations : List Operation} {o : Operation} :
    e.EditedSinceSave (operations ++ [o])
      ↔ (e.run operations).Accepts o ∨ e.EditedSinceSave operations ∧ ¬ o.IsSave := by
  constructor
  · rintro ⟨before, a, after, hsplit, haccepts, hafter⟩
    rcases List.eq_nil_or_concat after with rfl | ⟨after, b, rfl⟩
    · obtain ⟨rfl, hlast⟩ := List.append_inj' hsplit rfl
      obtain rfl := List.singleton_inj.1 hlast
      exact .inl haccepts
    · rw [List.concat_eq_append] at hsplit hafter
      rw [← List.cons_append, ← List.append_assoc] at hsplit
      obtain ⟨rfl, hlast⟩ := List.append_inj' hsplit rfl
      obtain rfl := List.singleton_inj.1 hlast
      refine .inr ⟨⟨before, a, after, rfl, haccepts, fun c hc => hafter c ?_⟩, hafter o ?_⟩
      · exact List.mem_append_left _ hc
      · exact List.mem_append_right _ List.mem_cons_self
  · rintro (haccepts | ⟨⟨before, a, after, rfl, haccepts, hafter⟩, hsave⟩)
    · exact ⟨operations, o, [], rfl, haccepts, fun a ha => absurd ha List.not_mem_nil⟩
    · refine ⟨before, a, after ++ [o], by simp, haccepts, fun b hb => ?_⟩
      rcases List.mem_append.1 hb with hb | hb
      · exact hafter b hb
      · exact List.mem_singleton.1 hb ▸ hsave

theorem dirty_run_iff (hclean : e.dirty = false) (operations : List Operation) :
    (e.run operations).dirty = true ↔ e.EditedSinceSave operations := by
  induction operations using List.reverseRecOn with
  | nil =>
      refine iff_of_false (fun hdirty => ?_) ?_
      · exact Bool.eq_false_iff.1 hclean hdirty
      · rintro ⟨before, o, after, hsplit, -⟩
        exact absurd hsplit.symm (List.append_ne_nil_of_right_ne_nil before (List.cons_ne_nil o after))
  | append_singleton operations o ih =>
      rw [run_concat, dirty_after, ih, editedSinceSave_concat_iff]

theorem workflow_run_of_clean (before : List Operation) {after : List Operation}
    (hsaves : ∀ o ∈ after, ¬ o.IsSave) (hclean : (e.run (before ++ after)).dirty = false) :
    (e.run (before ++ after)).workflow = (e.run before).workflow := by
  induction after using List.reverseRecOn with
  | nil => rw [List.append_nil]
  | append_singleton after o ih =>
      have hsave : ¬ o.IsSave := hsaves o (List.mem_append_right _ List.mem_cons_self)
      rw [← List.append_assoc, run_concat] at hclean ⊢
      have hdirty := Bool.eq_false_iff.1 hclean
      rw [ne_eq, dirty_after, not_or] at hdirty
      have hbefore : (e.run (before ++ after)).dirty = false :=
        eq_false_of_ne_true fun h => hdirty.2 ⟨h, hsave⟩
      rw [workflow_after _ hdirty.1 hsave]
      exact ih (fun a ha => hsaves a (List.mem_append_left _ ha)) hbefore

/-- A refused operation leaves the editor as it was, but for the message of an announced rejection. The
flag for unsaved changes is set exactly if an edit was accepted since the workflow was opened or last
saved, so as long as it is not set the graph is what it was then. -/
theorem atomic_and_dirty_exact (workflow : Workflow) (geometry : Geometry)
    (assembler : Compile.Assembler) (operations : List Operation) :
    (∀ (e : Editor) (o : Operation), Refused o (e.apply o).value.2 →
        e.after o = { e with notice := noticeAfter e.notice (e.apply o).value.2 })
      ∧ ((session workflow geometry assembler operations).dirty = true
          ↔ (opening workflow geometry assembler).EditedSinceSave operations)
      ∧ ∀ before after, operations = before ++ after → (∀ o ∈ after, ¬ o.IsSave) →
          (session workflow geometry assembler operations).dirty = false →
          (session workflow geometry assembler operations).graph
            = (session workflow geometry assembler before).graph := by
  refine ⟨fun e o hrefused => e.after_of_refused hrefused, dirty_run_iff _ rfl operations, ?_⟩
  rintro before after rfl hsaves hclean
  exact congrArg Workflow.graph (workflow_run_of_clean _ before hsaves hclean)

end SegmentFlow.Editor
