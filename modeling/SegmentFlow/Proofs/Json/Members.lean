import SegmentFlow.Json.Writing
/-!
# The members of an object

An object keeps its members in the order in which they are written and may repeat a name. `valuesOf`
reads all that is written under a name, and `NoRepeats` says of a whole tree that there is never more
than one such value. The rest is about members that are left out when there is nothing to write:
where a name occurs once at most, a list of such members can be read from its front.
-/

namespace SegmentFlow

variable {ε α : Type}

namespace Tree

/-- The values that an object gives a name, in the order in which they are written. -/
def valuesOf (name : String) : Tree ε → List (Tree ε)
  | obj members => (members.filter fun m => m.1 = name).map Prod.snd
  | _ => []

mutual

/-- No object in the tree repeats the name of a member. -/
def NoRepeats : Tree ε → Prop
  | arr items => NoRepeatsItems items
  | obj members => (members.map Prod.fst).Nodup ∧ NoRepeatsMembers members
  | _ => True

def NoRepeatsItems : List (Tree ε) → Prop
  | [] => True
  | t :: ts => NoRepeats t ∧ NoRepeatsItems ts

def NoRepeatsMembers : List (String × Tree ε) → Prop
  | [] => True
  | (_, t) :: ms => NoRepeats t ∧ NoRepeatsMembers ms

end

theorem noRepeats_arr_iff {items : List (Tree ε)} :
    (arr items).NoRepeats ↔ ∀ t ∈ items, t.NoRepeats := by
  rw [NoRepeats]
  induction items with
  | nil => simp [NoRepeatsItems]
  | cons t ts ih => rw [NoRepeatsItems, ih, List.forall_mem_cons]

theorem noRepeats_obj_iff {members : List (String × Tree ε)} :
    (obj members).NoRepeats
      ↔ (members.map Prod.fst).Nodup ∧ ∀ m ∈ members, m.2.NoRepeats := by
  have hmembers : NoRepeatsMembers members ↔ ∀ m ∈ members, m.2.NoRepeats := by
    induction members with
    | nil => simp [NoRepeatsMembers]
    | cons m ms ih => rw [NoRepeatsMembers, ih, List.forall_mem_cons]
  rw [NoRepeats, hmembers]

theorem noRepeats_obj_singleton {name : String} {t : Tree ε} :
    (obj [(name, t)]).NoRepeats ↔ t.NoRepeats := by
  simp [noRepeats_obj_iff]

theorem obj_singleton_inj {name name' : String} {t t' : Tree ε} :
    obj [(name, t)] = obj [(name', t')] ↔ name = name' ∧ t = t' := by
  rw [obj.injEq, List.singleton_inj, Prod.mk.injEq]

theorem noRepeats_str (s : String) : (str s : Tree ε).NoRepeats := by
  simp [NoRepeats]

theorem noRepeats_ofTexts (texts : List String) : (ofTexts texts : Tree ε).NoRepeats := by
  rw [ofTexts, noRepeats_arr_iff]
  intro t ht
  obtain ⟨s, _, rfl⟩ := List.mem_map.1 ht
  exact noRepeats_str s

theorem ofTexts_injective {texts texts' : List String}
    (h : (ofTexts texts : Tree ε) = ofTexts texts') : texts = texts' := by
  rw [ofTexts, ofTexts, arr.injEq] at h
  exact (List.map_inj_right fun _ _ hstr => str.inj hstr).1 h

end Tree

/-! ### Members that may be left out -/

variable {name n : String} {write : α → Tree ε} {x y : Option α}

theorem mem_names_optionalMember :
    n ∈ (optionalMember name write x).map Prod.fst ↔ n = name ∧ x.isSome = true := by
  cases x <;> simp [optionalMember]

theorem forall_mem_optionalMember {P : String × Tree ε → Prop} :
    (∀ m ∈ optionalMember name write x, P m) ↔ ∀ a ∈ x, P (name, write a) := by
  cases x <;> simp [optionalMember]

/-- A name stays new when a member of another name comes first. -/
theorem not_mem_names_optionalMember_append {ms : List (String × Tree ε)} (hne : n ≠ name)
    (hms : n ∉ ms.map Prod.fst) : n ∉ (optionalMember name write x ++ ms).map Prod.fst := by
  rw [List.map_append, List.mem_append, mem_names_optionalMember]
  rintro (⟨heq, -⟩ | hmem)
  · exact hne heq
  · exact hms hmem

theorem filter_optionalMember_self :
    (optionalMember name write x).filter (fun m => m.1 = name) = optionalMember name write x := by
  cases x <;> simp [optionalMember]

theorem filter_optionalMember_of_ne (hne : name ≠ n) :
    (optionalMember name write x).filter (fun m => m.1 = n) = [] := by
  cases x <;> simp [optionalMember, hne]

/-- A member that nothing after it repeats can be told from the members after it. -/
theorem optionalMember_append_inj {ms ns : List (String × Tree ε)}
    (hms : name ∉ ms.map Prod.fst) (hns : name ∉ ns.map Prod.fst)
    (h : optionalMember name write x ++ ms = optionalMember name write y ++ ns) :
    x.map write = y.map write ∧ ms = ns := by
  cases x with
  | none =>
      cases y with
      | none => exact ⟨rfl, h⟩
      | some b =>
          have hmem : name ∈ ms.map Prod.fst := by
            rw [show ms = (name, write b) :: ns from h]
            exact List.mem_cons_self
          exact absurd hmem hms
  | some a =>
      cases y with
      | none =>
          have hmem : name ∈ ns.map Prod.fst := by
            rw [show ns = (name, write a) :: ms from h.symm]
            exact List.mem_cons_self
          exact absurd hmem hns
      | some b =>
          simp only [optionalMember, List.singleton_append, List.cons.injEq, Prod.mk.injEq,
            true_and] at h
          exact ⟨congrArg some h.1, h.2⟩

end SegmentFlow
