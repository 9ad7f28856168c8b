import Mathlib.Algebra.Group.Nat.Defs
import Mathlib.Data.List.Induction
import Mathlib.Data.List.TakeWhile
import Mathlib.Tactic.SplitIfs
import SegmentFlow.Instant
import SegmentFlow.Proofs.Numeral
/-!
# The text of an instant reads back

Each part of the text is taken off by the reader of that part, whatever follows it. Numbers are
padded to the width that their reader takes, so a reader knows where to stop without looking on; only
a year with a sign has to be followed by something that is not a digit.

The other way round, a text of any form is only read as an instant that exists: the parts are within
their ranges, and the calendar is asked for the date.
-/

namespace SegmentFlow.Instant

/-- The date exists and the time of day is one that a clock shows, a leap second included. -/
structure IsValid (t : Instant) : Prop where
  date : t.date.exists? = true
  hour : t.hour ≤ 23
  minute : t.minute ≤ 59
  second : t.second ≤ 60
  nanosecond : t.nanosecond < 10 ^ 9

/-! ### Padded numbers -/

section Padded

variable {width n : Nat} {c : Char}

theorem toList_padded : (padded width n).toList
    = List.replicate (width - (Nat.toDigits 10 n).length) '0' ++ Nat.toDigits 10 n := by
  simp only [padded, String.toList_append, String.toList_ofList, Nat.toString_eq_repr,
    Nat.toList_repr, ← String.length_toList]

theorem isDigit_of_mem_padded (hc : c ∈ (padded width n).toList) : c.isDigit = true := by
  rw [toList_padded, List.mem_append] at hc
  obtain hc | hc := hc
  · rw [List.eq_of_mem_replicate hc]
    decide
  · exact Nat.isDigit_of_mem_toDigits (by decide) (by decide) hc

theorem padded_ne_nil (width n : Nat) : (padded width n).toList ≠ [] := by
  rw [toList_padded]
  exact List.append_ne_nil_of_right_ne_nil _ Nat.toDigits_ne_nil

theorem length_padded (hwidth : 0 < width) (hn : n < 10 ^ width) :
    (padded width n).toList.length = width := by
  have hlength := (Nat.length_toDigits_le_iff (by decide) hwidth).2 hn
  rw [toList_padded, List.length_append, List.length_replicate]
  omega

theorem ofDigits_eq_ofDigitChars (ds : List Char) :
    Reader.ofDigits ds = Nat.ofDigitChars 10 ds 0 := by
  rw [Reader.ofDigits, Nat.ofDigitChars_eq_foldl]
  congr 1
  funext n d
  rw [Nat.mul_comm]

theorem ofDigits_padded : Reader.ofDigits (padded width n).toList = n := by
  rw [ofDigits_eq_ofDigitChars, toList_padded, Nat.ofDigitChars_append,
    Nat.ofDigitChars_replicate_zero, Nat.mul_zero, Nat.ofDigitChars_ten_toDigits]

theorem ofDigits_append_zeros {ds : List Char} {k : Nat} :
    Reader.ofDigits (ds ++ List.replicate k '0') = 10 ^ k * Reader.ofDigits ds := by
  rw [ofDigits_eq_ofDigitChars, ofDigits_eq_ofDigitChars, Nat.ofDigitChars_append,
    Nat.ofDigitChars_replicate_zero]

end Padded

theorem isWhitespace_of_isDigit {c : Char} (hc : c.isDigit = true) : isWhitespace c = false := by
  simp only [Char.isDigit, Bool.and_eq_true, decide_eq_true_eq, ge_iff_le,
    UInt32.le_iff_toNat_le] at hc
  change 48 ≤ c.toNat ∧ c.toNat ≤ 57 at hc
  simp only [isWhitespace, whitespaceRanges, List.any_cons, List.any_nil, Bool.or_false,
    Bool.or_eq_false_iff, Bool.and_eq_false_imp, decide_eq_true_eq, decide_eq_false_iff_not]
  omega

namespace Reader

variable {α β : Type} {r : TextReader α} {cs rest rest' : List Char} {a : α} {b : β} {c : Char}

/-- The reader takes `a` off the text and leaves `rest`. -/
def Takes (r : TextReader α) (cs : List Char) (a : α) (rest : List Char) : Prop :=
  r.run cs = some (a, rest)

theorem Takes.bind {f : α → TextReader β} (h : Takes r cs a rest) (h' : Takes (f a) rest b rest') :
    Takes (r >>= f) cs b rest' := by
  rw [Takes, StateT.run_bind, h]
  exact h'

theorem takes_pure (a : α) (cs : List Char) : Takes (pure a) cs a cs := rfl

theorem Takes.discard (h : Takes r cs a rest) : Takes (discard r) cs () rest := by
  change (r.run cs >>= fun p => _) = _
  rw [h]
  rfl

theorem takes_oneOf {marks : List Char} (hc : c ∈ marks) :
    Takes (oneOf marks) (c :: rest) c rest :=
  if_pos hc

theorem takes_whitespace (hcs : ∀ c ∈ cs.head?, isWhitespace c = false) :
    Takes whitespace cs () cs := by
  have hskip : skipWhitespace cs = cs := by
    cases cs with
    | nil => rfl
    | cons c cs => exact List.dropWhile_cons_of_neg (by simpa using hcs)
  change some ((), skipWhitespace cs) = some ((), cs)
  rw [hskip]

theorem takes_whitespace_cons (hc : isWhitespace c = false) :
    Takes whitespace (c :: rest) () (c :: rest) :=
  takes_whitespace (by simpa using hc)

theorem takes_mark (hc : isWhitespace c = false) : Takes (mark c) (c :: rest) () rest :=
  (takes_whitespace_cons hc).bind (takes_oneOf (List.mem_singleton_self c)).discard

/-- Digits are taken up to the limit, or else up to the first character that is none. -/
theorem takes_digits {limit : Option Nat} {ds : List Char} (hds : ∀ d ∈ ds, d.isDigit = true)
    (hne : ds ≠ [])
    (hlimit : limit = some ds.length ∨ limit = none ∧ ∀ c ∈ rest.head?, c.isDigit = false) :
    Takes (digits limit) (ds ++ rest) ds rest := by
  have hfound : (limit.map ((ds ++ rest).takeWhile Char.isDigit).take).getD
      ((ds ++ rest).takeWhile Char.isDigit) = ds := by
    obtain rfl | ⟨rfl, hrest⟩ := hlimit
    · rw [List.takeWhile_append_of_pos hds]
      exact List.take_left
    · rw [takeWhile_isDigit_append hds hrest]
      rfl
  have hempty : ds.isEmpty = false := List.isEmpty_eq_false_iff.2 hne
  change (if _ then _ else _) = _
  simp only [hfound, hempty, Bool.false_eq_true, if_false, List.drop_left]

section Numbers

variable {width n : Nat}

theorem takes_padded {limit : Option Nat} (hlimit : limit = some (padded width n).toList.length
      ∨ limit = none ∧ ∀ c ∈ rest.head?, c.isDigit = false) :
    Takes (digits limit) ((padded width n).toList ++ rest) (padded width n).toList rest :=
  takes_digits (fun _ => isDigit_of_mem_padded) (padded_ne_nil _ _) hlimit

theorem takes_whitespace_padded :
    Takes whitespace ((padded width n).toList ++ rest) () ((padded width n).toList ++ rest) := by
  obtain ⟨d, ds, hdigits⟩ := List.exists_cons_of_ne_nil (padded_ne_nil width n)
  have hd : d.isDigit = true := isDigit_of_mem_padded (hdigits ▸ List.mem_cons_self)
  rw [hdigits]
  exact takes_whitespace_cons (isWhitespace_of_isDigit hd)

theorem takes_number {greatest : Nat} (hn : n ≤ greatest) (hgreatest : greatest < 100) :
    Takes (number greatest) ((padded 2 n).toList ++ rest) n rest := by
  have hlength : (padded 2 n).toList.length = 2 := length_padded (by decide) (by omega)
  refine takes_whitespace_padded.bind ((takes_padded (.inl (by rw [hlength]))).bind ?_)
  simp only [ofDigits_padded, if_pos hn]
  exact takes_pure n rest

end Numbers

/-! ### The date -/

theorem takes_get (cs : List Char) : Takes get cs cs cs := rfl

theorem takes_year {y : Int} (hrest : ∀ c ∈ rest.head?, c.isDigit = false) :
    Takes year ((yearText y).toList ++ rest) y rest := by
  rw [yearText]
  split
  · next hplain =>
      obtain ⟨d, ds, hdigits⟩ := List.exists_cons_of_ne_nil (padded_ne_nil 4 y.toNat)
      have hd : d.isDigit = true := isDigit_of_mem_padded (hdigits ▸ List.mem_cons_self)
      have hhead : ((padded 4 y.toNat).toList ++ rest).head? = some d := by rw [hdigits]; rfl
      have hlength : (padded 4 y.toNat).toList.length = 4 := length_padded (by decide) (by omega)
      refine takes_whitespace_padded.bind ((takes_get _).bind ?_)
      rw [hhead]
      split
      · next heq => exact absurd (Option.some.inj heq ▸ hd) (by decide)
      · next heq => exact absurd (Option.some.inj heq ▸ hd) (by decide)
      · refine (takes_padded (.inl (by rw [hlength]))).bind ?_
        rw [ofDigits_padded, Int.toNat_of_nonneg hplain.1]
        exact takes_pure y rest
  · have hdigits : Takes (digits none) ((padded 4 y.natAbs).toList ++ rest)
        (padded 4 y.natAbs).toList rest := takes_padded (.inr ⟨rfl, hrest⟩)
    by_cases hnegative : y < 0
    · rw [if_pos hnegative, String.toList_append]
      change Takes year ('-' :: ((padded 4 y.natAbs).toList ++ rest)) y rest
      refine (takes_whitespace_cons (by decide)).bind ((takes_get _).bind ?_)
      refine (takes_oneOf (List.mem_singleton_self _)).discard.bind (hdigits.bind ?_)
      rw [ofDigits_padded, show -(y.natAbs : Int) = y by omega]
      exact takes_pure y rest
    · rw [if_neg hnegative, String.toList_append]
      change Takes year ('+' :: ((padded 4 y.natAbs).toList ++ rest)) y rest
      refine (takes_whitespace_cons (by decide)).bind ((takes_get _).bind ?_)
      refine (takes_oneOf (List.mem_singleton_self _)).discard.bind (hdigits.bind ?_)
      rw [ofDigits_padded, show (y.natAbs : Int) = y by omega]
      exact takes_pure y rest

theorem takes_date {d : Date} (hmonth : d.month ≤ 12) (hday : d.day ≤ 31) :
    Takes date ((yearText d.year).toList ++ '-' :: ((padded 2 d.month).toList
      ++ '-' :: ((padded 2 d.day).toList ++ rest))) d rest :=
  (takes_year (by simp)).bind <| (takes_mark (by decide)).bind <|
    (takes_number hmonth (by decide)).bind <| (takes_mark (by decide)).bind <|
      (takes_number hday (by decide)).bind <| takes_pure d rest

/-! ### The time of day -/

/-- A fraction is read as if it went on with zeros. -/
theorem takes_point {width n : Nat} (hwidth : 0 < width) (hwidth' : width ≤ 9) (hn : n < 10 ^ width)
    (hrest : ∀ c ∈ rest.head?, c.isDigit = false) :
    Takes fraction ('.' :: ((padded width n).toList ++ rest)) (10 ^ (9 - width) * n) rest := by
  have hlength := length_padded hwidth hn
  have htake : (padded width n).toList.take 9 = (padded width n).toList :=
    List.take_of_length_le (by omega)
  refine (takes_get _).bind ?_
  refine (takes_oneOf (List.mem_singleton_self _)).discard.bind ?_
  refine (takes_padded (.inr ⟨rfl, hrest⟩)).bind ?_
  simp only [htake, ofDigits_append_zeros, ofDigits_padded, hlength]
  exact takes_pure _ rest

theorem takes_fraction {n : Nat} (hn : n < 10 ^ 9) :
    Takes fraction ((fractionText n).toList ++ 'Z' :: rest) n ('Z' :: rest) := by
  have hpoint (width m : Nat) (hwidth : 0 < width ∧ width ≤ 9) (hm : m < 10 ^ width)
      (hnano : 10 ^ (9 - width) * m = n) :
      Takes fraction (("." ++ padded width m).toList ++ 'Z' :: rest) n ('Z' :: rest) := by
    rw [String.toList_append, ← hnano]
    exact takes_point hwidth.1 hwidth.2 hm (by simp)
  rw [fractionText]
  split
  · next hzero =>
      rw [hzero]
      exact takes_pure 0 ('Z' :: rest)
  · split
    · exact hpoint 3 (n / 1000000) (by decide) (by omega) (by omega)
    · split
      · exact hpoint 6 (n / 1000) (by decide) (by omega) (by omega)
      · exact hpoint 9 n (by decide) hn (by omega)

theorem takes_zone : Takes zone ('Z' :: rest) 0 rest := by
  refine (takes_whitespace_cons (by decide)).bind ((takes_get _).bind ?_)
  rfl

end Reader

theorem ofLocal_zero {t : Instant} (ht : t.IsValid) : ofLocal t 0 = some t := by
  obtain ⟨hdate, hhour, hminute, -, -⟩ := ht
  have hminutes : (t.hour * 60 + t.minute - 0 : Int) = (t.hour * 60 + t.minute : Nat) := by omega
  have hday : ¬ ((t.hour * 60 + t.minute : Nat) : Int) < 0
      ∧ ((t.hour * 60 + t.minute : Nat) : Int) < 1440 := by omega
  have hclock : (((t.hour * 60 + t.minute : Nat) : Int) % 1440).toNat = t.hour * 60 + t.minute := by
    omega
  rw [ofLocal]
  simp only [hminutes, if_neg hday.1, if_pos hday.2, hdate, Bool.and_self, if_true, hclock]
  rw [show (t.hour * 60 + t.minute) / 60 = t.hour by omega,
    show (t.hour * 60 + t.minute) % 60 = t.minute by omega]

theorem toList_text (t : Instant) : t.text.toList
    = (yearText t.date.year).toList ++ '-' :: ((padded 2 t.date.month).toList
      ++ '-' :: ((padded 2 t.date.day).toList ++ 'T' :: ((padded 2 t.hour).toList
      ++ ':' :: ((padded 2 t.minute).toList ++ ':' :: ((padded 2 t.second).toList
      ++ ((fractionText t.nanosecond).toList ++ ['Z'])))))) := by
  have hdash : "-".toList = ['-'] := rfl
  have htime : "T".toList = ['T'] := rfl
  have hcolon : ":".toList = [':'] := rfl
  have hzone : "Z".toList = ['Z'] := rfl
  simp only [text, String.toList_append, hdash, htime, hcolon, hzone, List.append_assoc,
    List.cons_append, List.nil_append]

theorem bounds_of_exists {d : Date} (hd : d.exists? = true) : d.month ≤ 12 ∧ d.day ≤ 31 := by
  have hlength : Date.daysInMonth d.year d.month ≤ 31 := by
    rw [Date.daysInMonth]
    split_ifs <;> decide
  simp only [Date.exists?, Bool.and_eq_true, decide_eq_true_eq] at hd
  omega

theorem parse_text {t : Instant} (ht : t.IsValid) : parse t.text = some t := by
  obtain ⟨hmonth, hday⟩ := bounds_of_exists ht.date
  have hread : Reader.Takes Reader.instant t.text.toList t [] := by
    rw [toList_text]
    refine (Reader.takes_date hmonth hday).bind ?_
    refine (Reader.takes_oneOf List.mem_cons_self).discard.bind ?_
    refine (Reader.takes_number ht.hour (by decide)).bind ?_
    refine (Reader.takes_mark (by decide)).bind ?_
    refine (Reader.takes_number ht.minute (by decide)).bind ?_
    refine (Reader.takes_mark (by decide)).bind ?_
    refine (Reader.takes_number ht.second (by decide)).bind ?_
    refine (Reader.takes_fraction ht.nanosecond).bind ?_
    refine Reader.takes_zone.bind ?_
    refine (Reader.takes_whitespace (by simp)).bind ?_
    rw [ofLocal_zero ht]
    rfl
  rw [parse, hread]

/-! ### What a text is read as -/

namespace Reader

variable {α β : Type} {r : TextReader α} {f : α → TextReader β} {P : β → Prop} {Q : α → Prop}
  {b : β} {ds : List Char}

/-- Whatever the reader takes off a text satisfies `Q`. -/
def Gives (r : TextReader α) (Q : α → Prop) : Prop :=
  ∀ cs a rest, Takes r cs a rest → Q a

theorem Gives.bind (h : Gives r Q) (h' : ∀ a, Q a → Gives (f a) P) : Gives (r >>= f) P := by
  intro cs b rest hbind
  rw [Takes, StateT.run_bind] at hbind
  obtain ⟨⟨a, rest'⟩, ha, hb⟩ := Option.bind_eq_some_iff.1 hbind
  exact h' a (h cs a rest' ha) rest' b rest hb

theorem gives_bind (h : ∀ a, Gives (f a) P) : Gives (r >>= f) P :=
  Gives.bind (Q := fun _ => True) (fun _ _ _ _ => trivial) fun a _ => h a

theorem gives_pure (hb : P b) : Gives (pure b) P := by
  intro cs b' rest h
  obtain ⟨rfl, -⟩ := Prod.mk.inj (Option.some.inj h)
  exact hb

theorem gives_failure : Gives failure P :=
  fun _ _ _ h => nomatch h

theorem gives_number (greatest : Nat) : Gives (number greatest) (· ≤ greatest) := by
  refine gives_bind fun _ => gives_bind fun ds => ?_
  by_cases hle : ofDigits ds ≤ greatest
  · simp only [if_pos hle]
    exact gives_pure hle
  · simp only [if_neg hle]
    exact gives_failure

theorem gives_digits (limit : Option Nat) :
    Gives (digits limit) fun ds => ∀ d ∈ ds, d.isDigit = true := by
  intro cs ds rest h
  change (if _ then _ else _) = _ at h
  split at h
  · nomatch h
  · obtain ⟨rfl, -⟩ := Prod.mk.inj (Option.some.inj h)
    intro d hd
    have hall : d ∈ cs.takeWhile Char.isDigit := by
      cases limit with
      | none => exact hd
      | some n => exact List.mem_of_mem_take hd
    exact List.mem_takeWhile_imp hall

theorem ofDigits_lt (hds : ∀ d ∈ ds, d.isDigit = true) : ofDigits ds < 10 ^ ds.length := by
  induction ds using List.reverseRecOn with
  | nil => decide
  | append_singleton ds d ih =>
      rw [List.forall_mem_append, List.forall_mem_singleton] at hds
      have hbefore := ih hds.1
      have hd : d.toNat - '0'.toNat ≤ 9 := by
        have hdigit := hds.2
        simp only [Char.isDigit, Bool.and_eq_true, decide_eq_true_eq, UInt32.le_iff_toNat_le]
          at hdigit
        change d.toNat - 48 ≤ 9
        have hle : d.toNat ≤ 57 := hdigit.2
        omega
      have hlast : ofDigits (ds ++ [d]) = ofDigits ds * 10 + (d.toNat - '0'.toNat) := by
        rw [ofDigits, List.foldl_append]
        rfl
      rw [hlast, List.length_append, List.length_singleton, Nat.pow_succ]
      omega

/-- However many digits a fraction has, nine of them count. -/
theorem gives_fraction : Gives fraction (· < 10 ^ 9) := by
  refine gives_bind fun cs => ?_
  split
  · refine gives_bind fun _ => (gives_digits none).bind fun ds hds => gives_pure ?_
    have hlength : (ds.take 9 ++ List.replicate (9 - (ds.take 9).length) '0').length = 9 := by
      rw [List.length_append, List.length_replicate, List.length_take]
      omega
    have hdigits : ∀ d ∈ ds.take 9 ++ List.replicate (9 - (ds.take 9).length) '0',
        d.isDigit = true := by
      rw [List.forall_mem_append]
      refine ⟨fun d hd => hds d (List.mem_of_mem_take hd), fun d hd => ?_⟩
      rw [List.eq_of_mem_replicate hd]
      decide
    have hlt := ofDigits_lt hdigits
    rwa [hlength] at hlt
  · exact gives_pure (by decide)

end Reader

theorem isValid_of_ofLocal {t t' : Instant} {ahead : Int} (h : ofLocal t ahead = some t')
    (hsecond : t.second ≤ 60) (hnanosecond : t.nanosecond < 10 ^ 9) : t'.IsValid := by
  obtain ⟨hdates, hlocal⟩ := Option.ite_none_right_eq_some.1 h
  obtain rfl := Option.some.inj hlocal
  have hclock : ((t.hour * 60 + t.minute - ahead) % 1440).toNat < 1440 := by omega
  rw [Bool.and_eq_true] at hdates
  exact ⟨hdates.2, by dsimp only; omega, by dsimp only; omega, hsecond, hnanosecond⟩

theorem isValid_of_parse {s : String} {t : Instant} (h : parse s = some t) : t.IsValid := by
  have hgives : Reader.Gives Reader.instant IsValid := by
    refine Reader.gives_bind fun date => Reader.gives_bind fun _ => ?_
    refine Reader.gives_bind fun hour => Reader.gives_bind fun _ => ?_
    refine Reader.gives_bind fun minute => Reader.gives_bind fun _ => ?_
    refine (Reader.gives_number 60).bind fun second hsecond => ?_
    refine Reader.gives_fraction.bind fun nanosecond hnanosecond => ?_
    refine Reader.gives_bind fun ahead => Reader.gives_bind fun _ => ?_
    intro cs t rest hlocal
    obtain ⟨t', ht', heq⟩ := Option.bind_eq_some_iff.1 hlocal
    obtain ⟨rfl, -⟩ := Prod.mk.inj (Option.some.inj heq)
    exact isValid_of_ofLocal ht' hsecond hnanosecond
  rw [parse] at h
  split at h
  · next t' htaken =>
      obtain rfl := Option.some.inj h
      exact hgives _ _ _ htaken
  · nomatch h

end SegmentFlow.Instant
