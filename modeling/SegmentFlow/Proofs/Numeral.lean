/-!
# Numbers in texts

A number is written in digits, and its digits end where the text goes on with something else. So the
number and the rest of the text can be told from the whole.
-/

namespace SegmentFlow

theorem takeWhile_isDigit_append {ds rest : List Char} (hds : ∀ d ∈ ds, d.isDigit = true)
    (hrest : ∀ c ∈ rest.head?, c.isDigit = false) : (ds ++ rest).takeWhile Char.isDigit = ds := by
  have hnone : rest.takeWhile Char.isDigit = [] := by
    cases rest with
    | nil => rfl
    | cons c rest => exact List.takeWhile_cons_of_neg (by simpa using hrest)
  rw [List.takeWhile_append_of_pos hds, hnone, List.append_nil]

variable {m n : Nat} {s t : String}

theorem toList_toString (n : Nat) : (toString n).toList = Nat.toDigits 10 n := by
  rw [Nat.toString_eq_repr, Nat.toList_repr]

theorem isDigit_of_mem_toString {d : Char} (hd : d ∈ (toString n).toList) : d.isDigit = true := by
  rw [toList_toString] at hd
  exact Nat.isDigit_of_mem_toDigits (by decide) (by decide) hd

theorem toString_inj : toString m = toString n ↔ m = n := by
  refine ⟨fun h => ?_, congrArg toString⟩
  have hdigits : Nat.toDigits 10 m = Nat.toDigits 10 n := by
    rw [← toList_toString, h, toList_toString]
  rw [← Nat.ofDigitChars_ten_toDigits (n := m), hdigits, Nat.ofDigitChars_ten_toDigits]

theorem toString_append_inj (hs : ∀ c ∈ s.toList.head?, c.isDigit = false)
    (ht : ∀ c ∈ t.toList.head?, c.isDigit = false) :
    toString m ++ s = toString n ++ t ↔ m = n ∧ s = t := by
  refine ⟨fun h => ?_, fun ⟨hnumber, hrest⟩ => by rw [hnumber, hrest]⟩
  have hlists := congrArg String.toList h
  rw [String.toList_append, String.toList_append] at hlists
  have hdigits : (toString m).toList = (toString n).toList := by
    rw [← takeWhile_isDigit_append (fun _ => isDigit_of_mem_toString) hs, hlists,
      takeWhile_isDigit_append (fun _ => isDigit_of_mem_toString) ht]
  have hnumber : m = n := toString_inj.1 (String.toList_inj.1 hdigits)
  rw [hnumber, String.append_right_inj] at h
  exact ⟨hnumber, h⟩

theorem toString_append_ne (ht : ∀ c ∈ t.toList.head?, c.isDigit = false) :
    toString n ++ s ≠ t := by
  rintro rfl
  obtain ⟨d, ds, hdigits⟩ := List.exists_cons_of_ne_nil (Nat.toDigits_ne_nil (n := n) (b := 10))
  have hd : d.isDigit = true := isDigit_of_mem_toString (n := n) (by simp [hdigits])
  have hhead := ht d (by simp [hdigits])
  exact Bool.false_ne_true (hhead.symm.trans hd)

end SegmentFlow
