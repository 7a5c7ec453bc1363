import StatQuery.Proofs.Json.Grammar

/-!
# Code units of strings

A JSON string names 16-bit code units, whichever way each of them is written: a character past the
basic plane is the surrogate pair that escapes it. `ContentOf units content` says which units stand
between the quotes, and every content has units (`isContent_iff`). A text has the units that stand for
it (`text?_unitsOf`) and no others (`unitsOf_of_text?`); half of a pair alone stands for no text.
-/

namespace StatQuery.Json

open Reader

/-- The code units of a character: a surrogate pair if it lies past the basic plane. -/
def codeUnits (c : Char) : List Nat :=
  if c.toNat < 0x10000 then [c.toNat]
  else [0xD800 + (c.toNat - 0x10000) / 0x400, 0xDC00 + (c.toNat - 0x10000) % 0x400]

/-- The code units of a text. -/
def unitsOf (s : String) : List Nat := s.toList.flatMap codeUnits

/-- The unit is a character of its own and no half of a pair. -/
def IsScalar (unit : Nat) : Prop := unit < 0xD800 ∨ 0xDFFF < unit ∧ unit < 0x10000

instance (unit : Nat) : Decidable (IsScalar unit) := inferInstanceAs (Decidable (_ ∨ _))

/-- The units are the halves of a surrogate pair. -/
def IsPair (high low : Nat) : Prop :=
  (0xD800 ≤ high ∧ high ≤ 0xDBFF) ∧ 0xDC00 ≤ low ∧ low ≤ 0xDFFF

instance (high low : Nat) : Decidable (IsPair high low) := inferInstanceAs (Decidable (_ ∧ _))

/-- The character of a surrogate pair. -/
def pairChar (high low : Nat) : Char :=
  Char.ofNat ((high - 0xD800) * 0x400 + (low - 0xDC00) + 0x10000)

/-- The characters that code units stand for. -/
def chars? : List Nat → Option (List Char)
  | [] => some []
  | unit :: rest =>
    if IsScalar unit then (chars? rest).map (Char.ofNat unit :: ·)
    else
      match rest with
      | [] => none
      | low :: rest => if IsPair unit low then (chars? rest).map (pairChar unit low :: ·) else none

/-- The text that code units stand for. -/
def text? (units : List Nat) : Option String := (chars? units).map String.ofList

/-- The units stand between the quotes of a string. -/
inductive ContentOf : List Nat → List UInt8 → Prop
  | nil : ContentOf [] []
  | char {c : Char} {units : List Nat} {rest : List UInt8} (hc : ' ' ≤ c) (hquote : c ≠ '"')
      (hslash : c ≠ '\\') (h : ContentOf units rest) :
      ContentOf (codeUnits c ++ units) (Utf8.encodeChar c ++ rest)
  | short {b content : UInt8} {units : List Nat} {rest : List UInt8}
      (hb : plainEscape? b = some content) (h : ContentOf units rest) :
      ContentOf (content.toNat :: units) (0x5C :: b :: rest)
  | unit {a b c d : UInt8} {code : Nat} {units : List Nat} {rest : List UInt8}
      (hword : hexWord? a b c d = some code) (h : ContentOf units rest) :
      ContentOf (code :: units) (0x5C :: 0x75 :: a :: b :: c :: d :: rest)

/-- The text is a string of the units between quotes. -/
def UnitsWritten (units : List Nat) (text : List UInt8) : Prop :=
  ∃ content, ContentOf units content ∧ text = 0x22 :: (content ++ [0x22])

/-- Whatever may stand between quotes has code units. -/
theorem isContent_iff {content : List UInt8} : IsContent content ↔ ∃ units, ContentOf units content := by
  constructor
  · intro h
    induction h with
    | nil => exact ⟨[], .nil⟩
    | char hc hquote hslash _ ih =>
      obtain ⟨units, hunits⟩ := ih
      exact ⟨_, .char hc hquote hslash hunits⟩
    | short hb _ ih =>
      obtain ⟨units, hunits⟩ := ih
      exact ⟨_, .short hb hunits⟩
    | unit hword _ ih =>
      obtain ⟨units, hunits⟩ := ih
      exact ⟨_, .unit hword hunits⟩
  · rintro ⟨units, h⟩
    induction h with
    | nil => exact .nil
    | char hc hquote hslash _ ih => exact .char hc hquote hslash ih
    | short hb _ ih => exact .short hb ih
    | unit hword _ ih => exact .unit hword ih

theorem isString_iff {text : List UInt8} : IsString text ↔ ∃ units, UnitsWritten units text := by
  constructor
  · rintro ⟨content, hcontent, htext⟩
    obtain ⟨units, hunits⟩ := isContent_iff.1 hcontent
    exact ⟨units, content, hunits, htext⟩
  · rintro ⟨units, content, hunits, htext⟩
    exact ⟨content, isContent_iff.2 ⟨units, hunits⟩, htext⟩

/-! ### Units and characters -/

theorem chars?_scalar {unit : Nat} (h : IsScalar unit) (units : List Nat) :
    chars? (unit :: units) = (chars? units).map (Char.ofNat unit :: ·) := by
  rw [chars?.eq_def]
  exact if_pos h

theorem chars?_pair {high low : Nat} (h : IsPair high low) (units : List Nat) :
    chars? (high :: low :: units) = (chars? units).map (pairChar high low :: ·) := by
  have hnot : ¬ IsScalar high := by
    simp only [IsScalar, IsPair] at h ⊢
    omega
  rw [chars?.eq_def]
  simp only [if_neg hnot, if_pos h]

/-- Half of a pair stands for nothing unless the other half follows it. -/
theorem chars?_half {unit : Nat} {units : List Nat} (h : ¬ IsScalar unit)
    (hnext : ∀ low ∈ units.head?, ¬ IsPair unit low) : chars? (unit :: units) = none := by
  rw [chars?.eq_def]
  simp only [if_neg h]
  cases units with
  | nil => rfl
  | cons low rest => exact if_neg (hnext low rfl)

theorem isValidChar_toNat (c : Char) :
    c.toNat < 0xD800 ∨ 0xDFFF < c.toNat ∧ c.toNat < 0x110000 := c.valid

theorem toNat_ofNat {n : Nat} (h : n < 0xD800 ∨ 0xDFFF < n ∧ n < 0x110000) :
    (Char.ofNat n).toNat = n := by
  rw [Char.ofNat, dif_pos h]
  rfl

theorem toNat_pairChar {high low : Nat} (h : IsPair high low) :
    (pairChar high low).toNat = (high - 0xD800) * 0x400 + (low - 0xDC00) + 0x10000 := by
  apply toNat_ofNat
  simp only [IsPair] at h
  omega

theorem codeUnits_ofNat {unit : Nat} (h : IsScalar unit) : codeUnits (Char.ofNat unit) = [unit] := by
  have hunit : (Char.ofNat unit).toNat = unit := by
    apply toNat_ofNat
    simp only [IsScalar] at h
    omega
  have hbasic : unit < 0x10000 := by
    simp only [IsScalar] at h
    omega
  rw [codeUnits, hunit, if_pos hbasic]

theorem codeUnits_pairChar {high low : Nat} (h : IsPair high low) :
    codeUnits (pairChar high low) = [high, low] := by
  have hbounds := h
  simp only [IsPair] at hbounds
  have hpast : ¬ (high - 0xD800) * 0x400 + (low - 0xDC00) + 0x10000 < 0x10000 := by omega
  rw [codeUnits, toNat_pairChar h, if_neg hpast]
  simp only [List.cons.injEq, and_true]
  constructor <;> omega

/-- A character is one unit or a pair. -/
theorem codeUnits_cases (c : Char) :
    (∃ unit, IsScalar unit ∧ c = Char.ofNat unit) ∨ ∃ high low, IsPair high low ∧ c = pairChar high low := by
  have hvalid := isValidChar_toNat c
  by_cases hbasic : c.toNat < 0x10000
  · refine .inl ⟨c.toNat, ?_, (Char.ofNat_toNat c).symm⟩
    simp only [IsScalar]
    omega
  · refine .inr ⟨0xD800 + (c.toNat - 0x10000) / 0x400, 0xDC00 + (c.toNat - 0x10000) % 0x400, ?_, ?_⟩
    · simp only [IsPair]
      omega
    · have hcode : (0xD800 + (c.toNat - 0x10000) / 0x400 - 0xD800) * 0x400 +
          (0xDC00 + (c.toNat - 0x10000) % 0x400 - 0xDC00) + 0x10000 = c.toNat := by omega
      rw [pairChar, hcode, Char.ofNat_toNat]

theorem chars?_codeUnits_append (c : Char) (units : List Nat) :
    chars? (codeUnits c ++ units) = (chars? units).map (c :: ·) := by
  rcases codeUnits_cases c with ⟨unit, hunit, hc⟩ | ⟨high, low, hpair, hc⟩
  · rw [hc, codeUnits_ofNat hunit, List.singleton_append, chars?_scalar hunit]
  · rw [hc, codeUnits_pairChar hpair, List.cons_append, List.singleton_append, chars?_pair hpair]

/-- The latter half of a pair does not come first. -/
theorem not_isPair_head_codeUnits {high low : Nat} {c : Char} {units : List Nat}
    (h : low ∈ (codeUnits c ++ units).head?) : ¬ IsPair high low := by
  simp only [IsPair]
  rcases codeUnits_cases c with ⟨unit, hunit, hc⟩ | ⟨first, second, hpair, hc⟩
  · rw [hc, codeUnits_ofNat hunit] at h
    obtain rfl : unit = low := by simpa using h
    simp only [IsScalar] at hunit
    omega
  · rw [hc, codeUnits_pairChar hpair] at h
    obtain rfl : first = low := by simpa using h
    simp only [IsPair] at hpair
    omega

theorem chars?_flatMap (cs : List Char) : chars? (cs.flatMap codeUnits) = some cs := by
  induction cs with
  | nil => rfl
  | cons c cs ih => rw [List.flatMap_cons, chars?_codeUnits_append, ih, Option.map_some]

theorem flatMap_of_chars? {units : List Nat} {cs : List Char} (h : chars? units = some cs) :
    cs.flatMap codeUnits = units := by
  induction units using chars?.induct generalizing cs with
  | case1 =>
    obtain rfl : [] = cs := Option.some.inj h
    rfl
  | case2 unit rest hscalar ih =>
    rw [chars?_scalar hscalar] at h
    obtain ⟨tail, htail, rfl⟩ := Option.map_eq_some_iff.1 h
    rw [List.flatMap_cons, codeUnits_ofNat hscalar, ih htail]
    rfl
  | case3 unit hscalar =>
    rw [chars?_half hscalar (by simp)] at h
    cases h
  | case4 unit hscalar low rest hpair ih =>
    rw [chars?_pair hpair] at h
    obtain ⟨tail, htail, rfl⟩ := Option.map_eq_some_iff.1 h
    rw [List.flatMap_cons, codeUnits_pairChar hpair, ih htail]
    rfl
  | case5 unit hscalar low rest hpair =>
    have hnext : ∀ next ∈ (low :: rest).head?, ¬ IsPair unit next := by simpa using hpair
    rw [chars?_half hscalar hnext] at h
    cases h

@[simp] theorem text?_unitsOf (s : String) : text? (unitsOf s) = some s := by
  rw [text?, unitsOf, chars?_flatMap, Option.map_some, String.ofList_toList]

theorem unitsOf_of_text? {units : List Nat} {s : String} (h : text? units = some s) :
    unitsOf s = units := by
  obtain ⟨cs, hcs, rfl⟩ := Option.map_eq_some_iff.1 h
  rw [unitsOf, String.toList_ofList, flatMap_of_chars? hcs]

end StatQuery.Json
