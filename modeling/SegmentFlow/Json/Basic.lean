import SegmentFlow.Binary64.Basic
/-!
# JSON trees

A `Tree ε` is a JSON value in which a part may be missing: the flaw that stands in its place is a
value of `ε`. Text is read into trees with flaws, so that a reader of a typed value meets a
misspelling in the place where it stands; everything else is about `Json`, the trees that cannot
have a flaw.

An object keeps its members in order and may repeat a name. What a store does with a repeated name
is `Json.normal` (the last one counts, names in increasing order), and the printed text shows the
members as they are.
-/

namespace SegmentFlow

/-- A whole number stays one: `1000` and `1000.0` are different numbers. -/
inductive Number where
  | integer (value : Int)
  | float (value : Binary64)
  deriving DecidableEq

inductive Tree (ε : Type) where
  | null
  | bool (value : Bool)
  | num (value : Number)
  | str (value : String)
  | arr (items : List (Tree ε))
  | obj (members : List (String × Tree ε))
  | flaw (reason : ε)

abbrev Json := Tree Empty

namespace Tree

variable {ε : Type}

instance : Inhabited (Tree ε) := ⟨null⟩

/-! ### Equality is decidable -/

mutual

def beq [DecidableEq ε] : Tree ε → Tree ε → Bool
  | null, null => true
  | bool a, bool b => decide (a = b)
  | num a, num b => decide (a = b)
  | str a, str b => decide (a = b)
  | arr a, arr b => beqItems a b
  | obj a, obj b => beqMembers a b
  | flaw a, flaw b => decide (a = b)
  | _, _ => false

def beqItems [DecidableEq ε] : List (Tree ε) → List (Tree ε) → Bool
  | [], [] => true
  | a :: as, b :: bs => beq a b && beqItems as bs
  | _, _ => false

def beqMembers [DecidableEq ε] : List (String × Tree ε) → List (String × Tree ε) → Bool
  | [], [] => true
  | (k, a) :: as, (l, b) :: bs => decide (k = l) && beq a b && beqMembers as bs
  | _, _ => false

end

mutual

theorem eq_of_beq [DecidableEq ε] : ∀ {a b : Tree ε}, beq a b = true → a = b
  | .null, b, h => by cases b <;> simp_all [beq]
  | .bool _, b, h => by cases b <;> simp_all [beq]
  | .num _, b, h => by cases b <;> simp_all [beq]
  | .str _, b, h => by cases b <;> simp_all [beq]
  | .arr as, b, h => by
    cases b <;> simp only [beq, Bool.false_eq_true] at h
    rw [eq_of_beqItems h]
  | .obj as, b, h => by
    cases b <;> simp only [beq, Bool.false_eq_true] at h
    rw [eq_of_beqMembers h]
  | .flaw _, b, h => by cases b <;> simp_all [beq]

theorem eq_of_beqItems [DecidableEq ε] :
    ∀ {as bs : List (Tree ε)}, beqItems as bs = true → as = bs
  | [], bs, h => by cases bs <;> simp_all [beqItems]
  | a :: as, bs, h => by
    cases bs with
    | nil => simp [beqItems] at h
    | cons b bs =>
      simp only [beqItems, Bool.and_eq_true] at h
      rw [eq_of_beq h.1, eq_of_beqItems h.2]

theorem eq_of_beqMembers [DecidableEq ε] :
    ∀ {as bs : List (String × Tree ε)}, beqMembers as bs = true → as = bs
  | [], bs, h => by cases bs <;> simp_all [beqMembers]
  | (k, a) :: as, bs, h => by
    cases bs with
    | nil => simp [beqMembers] at h
    | cons b bs =>
      obtain ⟨l, b⟩ := b
      simp only [beqMembers, Bool.and_eq_true, decide_eq_true_eq] at h
      rw [h.1.1, eq_of_beq h.1.2, eq_of_beqMembers h.2]

end

mutual

theorem beq_refl [DecidableEq ε] : ∀ a : Tree ε, beq a a = true
  | .null => rfl
  | .bool _ => by simp [beq]
  | .num _ => by simp [beq]
  | .str _ => by simp [beq]
  | .arr as => by rw [beq, beqItems_refl as]
  | .obj as => by rw [beq, beqMembers_refl as]
  | .flaw _ => by simp [beq]

theorem beqItems_refl [DecidableEq ε] : ∀ as : List (Tree ε), beqItems as as = true
  | [] => rfl
  | a :: as => by simp [beqItems, beq_refl a, beqItems_refl as]

theorem beqMembers_refl [DecidableEq ε] : ∀ as : List (String × Tree ε), beqMembers as as = true
  | [] => rfl
  | (k, a) :: as => by simp [beqMembers, beq_refl a, beqMembers_refl as]

end

instance [DecidableEq ε] : DecidableEq (Tree ε) := fun a b =>
  decidable_of_iff (beq a b = true) ⟨eq_of_beq, fun h => h ▸ beq_refl a⟩

end Tree

end SegmentFlow
