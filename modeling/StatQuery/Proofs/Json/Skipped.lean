import StatQuery.Proofs.Json.Leaves
import StatQuery.Proofs.Json.Skip

/-!
# What is skipped

A value that nobody asks for is only followed through its brackets and quotes, so any bytes past ASCII
may stand in its strings. `Skipped text` says that the text would be JSON if each of those bytes were a
letter.
-/

namespace StatQuery.Json

open Reader

/-- The byte as it looks to a reader of ASCII: every other byte is a letter. -/
def blur (b : UInt8) : UInt8 := if b < 0x80 then b else 0x78

/-- The text would be JSON if the bytes past ASCII were letters. -/
def Skipped (text : List UInt8) : Prop := IsText (text.map blur)

theorem blur_of_lt {b : UInt8} (h : b < 0x80) : blur b = b := if_pos h

theorem blur_of_not_lt {b : UInt8} (h : ¬ b < 0x80) : blur b = 0x78 := if_neg h

theorem blur_lt (b : UInt8) : blur b < 0x80 := by
  by_cases h : b < 0x80
  · rwa [blur_of_lt h]
  · rw [blur_of_not_lt h]
    decide

theorem map_blur_of_lt {text : List UInt8} (h : ∀ b ∈ text, b < 0x80) : text.map blur = text := by
  rw [List.map_congr_left fun b hb => blur_of_lt (h b hb), List.map_id']

theorem clear_of_isDigit {b : UInt8} (h : isDigit b = true) : b < 0x80 ∧ b ≠ 0x78 := by
  simp only [isDigit, Bool.and_eq_true, decide_eq_true_eq, UInt8.le_iff_toNat_le] at h
  have hhigh : b.toNat ≤ 57 := h.2
  refine ⟨UInt8.lt_iff_toNat_lt.2 (Nat.lt_of_le_of_lt hhigh (by decide)), ?_⟩
  rintro rfl
  exact absurd hhigh (by decide)

theorem clear_of_isBlank {b : UInt8} (h : isBlank b = true) : b < 0x80 ∧ b ≠ 0x78 := by
  simp only [isBlank, Bool.or_eq_true, decide_eq_true_eq] at h
  rcases h with ((rfl | rfl) | rfl) | rfl <;> decide

theorem plainEscape?_blur (b : UInt8) : plainEscape? (blur b) = plainEscape? b := by
  by_cases h : b < 0x80
  · rw [blur_of_lt h]
  · have hnone : plainEscape? b = none := by
      unfold plainEscape?
      split
      all_goals first
        | exact absurd h (by decide)
        | rfl
    rw [blur_of_not_lt h, hnone]
    rfl

theorem hexValue?_blur (b : UInt8) : hexValue? (blur b) = hexValue? b := by
  by_cases h : b < 0x80
  · rw [blur_of_lt h]
  · have hbig : 128 ≤ b.toNat := Nat.not_lt.1 fun hlt => h (UInt8.lt_iff_toNat_lt.2 hlt)
    have hnone : hexValue? b = none := by
      rw [hexValue?]
      simp only [UInt8.le_iff_toNat_le, Bool.and_eq_true, decide_eq_true_eq, UInt8.reduceToNat]
      rw [if_neg (by omega), if_neg (by omega), if_neg (by omega)]
    rw [blur_of_not_lt h, hnone]
    rfl

theorem hexWord?_blur (a b c d : UInt8) :
    hexWord? (blur a) (blur b) (blur c) (blur d) = hexWord? a b c d := by
  simp only [hexWord?, hexValue?_blur]

/-- No byte of the text is blurred, and none looks like one that is. -/
def Clear (text : List UInt8) : Prop := ∀ b ∈ text, b < 0x80 ∧ b ≠ 0x78

theorem Clear.map_blur {text : List UInt8} (h : Clear text) : text.map blur = text :=
  map_blur_of_lt fun b hb => (h b hb).1

theorem clear_append {xs ys : List UInt8} (hx : Clear xs) (hy : Clear ys) : Clear (xs ++ ys) :=
  List.forall_mem_append.2 ⟨hx, hy⟩

theorem clear_cons {b : UInt8} {text : List UInt8} (hb : b < 0x80 ∧ b ≠ 0x78) (h : Clear text) :
    Clear (b :: text) := List.forall_mem_cons.2 ⟨hb, h⟩

theorem clear_of_blanks {blanks : List UInt8} (h : Blanks blanks) : Clear blanks :=
  fun b hb => clear_of_isBlank (h b hb)

theorem Separates.clear {first : Bool} {separator : List UInt8} (h : Separates first separator) :
    Clear separator := by
  cases first with
  | true => exact clear_of_blanks h
  | false =>
    obtain ⟨before, behind, hbefore, hbehind, rfl⟩ : ∃ before behind, _ := h
    exact clear_append (clear_of_blanks hbefore) (clear_cons (by decide) (clear_of_blanks hbehind))

theorem IsDigits.clear {text : List UInt8} (h : IsDigits text) : Clear text :=
  fun b hb => clear_of_isDigit (h.2 b hb)

theorem IsFraction.clear {fraction : List UInt8} (h : IsFraction fraction) : Clear fraction := by
  cases h with
  | absent => simp [Clear]
  | point hdigits => exact clear_cons (by decide) (IsDigits.clear hdigits)

theorem IsExponent.clear {exponent : List UInt8} (h : IsExponent exponent) : Clear exponent := by
  cases h with
  | absent => simp [Clear]
  | power he hsign hdigits =>
    refine clear_cons ?_ (clear_append ?_ (IsDigits.clear hdigits))
    · rcases he with rfl | rfl <;> decide
    · rcases hsign with rfl | rfl | rfl <;> simp [Clear]

theorem IsMagnitude.clear {text : List UInt8} (h : IsMagnitude text) : Clear text := by
  obtain ⟨whole, hfraction, hexponent⟩ := h
  refine clear_append (fun b hb => ?_) (clear_append hfraction.clear hexponent.clear)
  exact clear_of_isDigit (isDigit_of_mem_decimal whole b hb)

/-! ### Strings -/

theorem literal_blur {b : UInt8} (h : Literal b) : Literal (blur b) := by
  by_cases hb : b < 0x80
  · rwa [blur_of_lt hb]
  · rw [blur_of_not_lt hb]
    exact ⟨by decide, by decide, by decide⟩

/-- A byte that stands for itself is content, if it is a character. -/
theorem IsContent.literal {b : UInt8} {rest : List UInt8} (hb : Literal b) (h : IsContent rest) :
    IsContent (blur b :: rest) := by
  have hbytes := Utf8.encodeChar_ofNat (blur_lt b)
  obtain ⟨hc, hquote, hslash⟩ := unescaped_of_literal hbytes (literal_blur hb)
  have hcontent := h.char hc hquote hslash
  rwa [hbytes] at hcontent

namespace Reader

variable {text rest : List UInt8}

theorem skipEscape_leaves {x : Unit} (h : skipEscape.Leaves text x rest) :
    ∃ head, text = head ++ rest ∧
      ∀ {more}, IsContent more → IsContent (0x5C :: (head.map blur ++ more)) := by
  rw [skipEscape] at h
  cases text with
  | nil => exact absurd h.peek (fails_failHere _).not_leaves
  | cons b tail =>
    have hnext := h.peek.advance
    split at hnext
    · next hb =>
      obtain ⟨code, hunit⟩ := hnext.discard
      obtain ⟨a, b', c, d, rfl, hword⟩ := hexUnit_leaves hunit
      rw [hb]
      exact ⟨[0x75, a, b', c, d], rfl, fun hmore => .unit ((hexWord?_blur a b' c d).trans hword) hmore⟩
    · split at hnext
      · next hplain =>
        obtain ⟨content, hcontent⟩ := Option.isSome_iff_exists.1 hplain
        rw [hnext.pure.2]
        exact ⟨[b], rfl, fun hmore => .short ((plainEscape?_blur b).trans hcontent) hmore⟩
      · exact absurd hnext (fails_failHere _).not_leaves

theorem skipStringUpTo_leaves {limit : Nat} {x : Unit}
    (h : (skipStringUpTo limit).Leaves text x rest) :
    ∃ content, IsContent (content.map blur) ∧ text = content ++ 0x22 :: rest := by
  induction limit generalizing text with
  | zero => exact absurd h (fails_failHere _).not_leaves
  | succ limit ih =>
    rw [skipStringUpTo] at h
    cases text with
    | nil => exact absurd h.peek (fails_failHere _).not_leaves
    | cons b tail =>
      have hnext := h.peek
      dsimp only [List.head?_cons] at hnext
      split at hnext
      · next hquote =>
        rw [hquote, hnext.advance_only]
        exact ⟨[], .nil, rfl⟩
      split at hnext
      · next hquote hslash =>
        obtain ⟨u, between, hescape, hmore⟩ := hnext.advance.bind
        obtain ⟨head, rfl, hhead⟩ := skipEscape_leaves hescape
        obtain ⟨content, hcontent, rfl⟩ := ih hmore
        refine ⟨0x5C :: (head ++ content), ?_, by simp [hslash]⟩
        rw [List.map_cons, List.map_append]
        exact hhead hcontent
      split at hnext
      · exact absurd hnext (fails_failHere _).not_leaves
      · next hquote hslash hcontrol =>
        obtain ⟨content, hcontent, rfl⟩ := ih hnext.advance
        exact ⟨b :: content, .literal ⟨hquote, hslash, hcontrol⟩ hcontent, rfl⟩

theorem skipString_leaves {x : Unit} (h : skipString.Leaves text x rest) :
    ∃ content, IsContent (content.map blur) ∧ text = content ++ 0x22 :: rest :=
  skipStringUpTo_leaves h.remaining

/-! ### Numbers -/

theorem digits_required_leaves {next : Reader Unit} {x : Unit}
    (h : (do
      let written ← digits
      if written.isEmpty then failNext .invalidNumber else next : Reader Unit).Leaves text x rest) :
    ∃ written between, IsDigits written ∧ text = written ++ between ∧ next.Leaves between x rest := by
  obtain ⟨written, between, hdigits, hnext⟩ := h.bind
  obtain ⟨rfl, hall, -⟩ := Leaves.takeRun hdigits
  split at hnext
  · exact absurd hnext (fails_failNext _).not_leaves
  · next hne => exact ⟨written, between, ⟨fun hnil => hne (by rw [hnil]; rfl), hall⟩, rfl, hnext⟩

theorem skipExponent_leaves {e : UInt8} {x : Unit} (he : e = 0x65 ∨ e = 0x45)
    (h : skipExponent.Leaves (e :: text) x rest) :
    ∃ exponent, IsExponent exponent ∧ e :: text = exponent ++ rest := by
  rw [skipExponent] at h
  have hnext := h.advance.peek
  extract_lets afterSign at hnext
  have hafter {sign tail : List UInt8} (hsign : sign = [] ∨ sign = [0x2B] ∨ sign = [0x2D])
      (hdigits : (afterSign ()).Leaves tail x rest) :
      ∃ exponent, IsExponent exponent ∧ e :: (sign ++ tail) = exponent ++ rest := by
    obtain ⟨written, between, hwritten, rfl, hpure⟩ := digits_required_leaves hdigits
    rw [hpure.pure.2]
    exact ⟨_, .power he hsign hwritten, by simp⟩
  cases text with
  | nil => exact hafter (.inl rfl) hnext
  | cons b tail =>
    dsimp only [List.head?_cons] at hnext
    split at hnext
    · next hb =>
      cases hb
      exact hafter (.inr (.inl rfl)) hnext.advance
    · next hb =>
      cases hb
      exact hafter (.inr (.inr rfl)) hnext.advance
    · exact hafter (.inl rfl) hnext

/-- Where an exponent may follow, one has been taken if it does. -/
theorem skipExponent_if_any_leaves {x : Unit}
    (h : (do
      match ← peek with
      | some 0x65 | some 0x45 => skipExponent
      | _ => return : Reader Unit).Leaves text x rest) :
    ∃ exponent, IsExponent exponent ∧ text = exponent ++ rest := by
  have hnext := h.peek
  cases text with
  | nil => exact ⟨[], .absent, hnext.pure.2.symm⟩
  | cons b tail =>
    dsimp only [List.head?_cons] at hnext
    split at hnext
    · next hb =>
      cases hb
      exact skipExponent_leaves (.inl rfl) hnext
    · next hb =>
      cases hb
      exact skipExponent_leaves (.inr rfl) hnext
    · exact ⟨[], .absent, hnext.pure.2.symm⟩

theorem skipAfterWhole_leaves {x : Unit} (h : skipAfterWhole.Leaves text x rest) :
    ∃ fraction exponent, IsFraction fraction ∧ IsExponent exponent ∧
      text = fraction ++ (exponent ++ rest) := by
  by_cases hpoint : text.head? = some 0x2E
  · obtain ⟨b, tail, rfl⟩ := List.exists_cons_of_ne_nil (show text ≠ [] by rintro rfl; cases hpoint)
    cases hpoint
    rw [skipAfterWhole] at h
    obtain ⟨written, between, hwritten, rfl, hnext⟩ := digits_required_leaves h.peek.advance
    obtain ⟨exponent, hexponent, rfl⟩ := skipExponent_if_any_leaves hnext
    exact ⟨0x2E :: written, exponent, .point hwritten, hexponent, rfl⟩
  · obtain ⟨p, p', h⟩ := h
    rw [skipAfterWhole_of_no_point hpoint] at h
    obtain ⟨exponent, hexponent, rfl⟩ := skipExponent_if_any_leaves ⟨p, p', h⟩
    exact ⟨[], exponent, .absent, hexponent, rfl⟩

theorem skipNumber_leaves_digits {x : Unit} (h : skipNumber.Leaves text x rest) :
    ∃ n tail, text = decimal n ++ tail ∧ EndsRun isDigit tail := by
  rw [skipNumber] at h
  cases text with
  | nil => exact absurd h.peek (fails_failNext _).not_leaves
  | cons b tail =>
    have hnext := h.peek
    dsimp only [List.head?_cons] at hnext
    split at hnext
    · next hb =>
      cases hb
      refine exists_decimal_prefix (by decide) fun _ c hc => ?_
      have hlast := hnext.advance.peek
      rw [Option.mem_def.1 hc] at hlast
      dsimp only at hlast
      split at hlast
      · exact absurd hlast (fails_failNext _).not_leaves
      · next hdigit => exact Bool.eq_false_iff.2 hdigit
    · next hne hb =>
      cases hb
      split at hnext
      · next hdigit =>
        refine exists_decimal_prefix hdigit ?_
        rintro rfl
        exact absurd rfl hne
      · exact absurd hnext (fails_failNext _).not_leaves
    · next hb => cases hb

theorem skipNumber_leaves {x : Unit} (h : skipNumber.Leaves text x rest) :
    ∃ number, IsMagnitude number ∧ text = number ++ rest := by
  obtain ⟨n, tail, rfl, hends⟩ := skipNumber_leaves_digits h
  obtain ⟨p, p', h⟩ := h
  rw [skipNumber_decimal n hends] at h
  obtain ⟨fraction, exponent, hfraction, hexponent, rfl⟩ := skipAfterWhole_leaves ⟨_, p', h⟩
  exact ⟨_, .of n hfraction hexponent, by simp⟩

/-! ### Values -/

/-- What the loops of skipping with a bound have taken, if they have come to an end. -/
structure SkipsText (limit : Nat) : Prop where
  value : (skipValueUpTo limit).Demands fun _ => Skipped
  items {first : Bool} {text rest : List UInt8} {x : Unit} :
    (skipItemsUpTo limit first).Leaves text x rest →
      ∃ body, IsItems first (body.map blur) ∧ text = body ++ 0x5D :: rest
  members {first : Bool} {text rest : List UInt8} {x : Unit} :
    (skipMembersUpTo limit first).Leaves text x rest →
      ∃ body, IsMembers first (body.map blur) ∧ text = body ++ 0x7D :: rest
  member {text rest : List UInt8} {x : Unit} : (skipMemberUpTo limit).Leaves text x rest →
    ∃ blanks body, Blanks blanks ∧ text = blanks ++ (body ++ 0x7D :: rest) ∧
      ∀ {first separator}, Separates first separator → IsMembers first (separator ++ body.map blur)

theorem skipValueUpTo_demands {limit : Nat} (h : SkipsText limit) :
    (skipValueUpTo (limit + 1)).Demands fun _ => Skipped := by
  intro text x rest hleaves
  rw [skipValueUpTo] at hleaves
  obtain ⟨blanks, b, tail, hblanks, rfl, -, hnext⟩ := hleaves.value
  have htaken {written : List UInt8} (hwritten : Skipped written) (hsplit : b :: tail = written ++ rest) :
      ∃ blanks' written', Blanks blanks' ∧ Skipped written' ∧
        blanks ++ b :: tail = blanks' ++ (written' ++ rest) :=
    ⟨blanks, written, hblanks, hwritten, by rw [hsplit]⟩
  split at hnext
  · exact htaken (show Skipped nullText from .null) (congrArg _ (word_leaves hnext.advance))
  · have htrue : Skipped [0x74, 0x72, 0x75, 0x65] := .boolTrue
    exact htaken htrue (congrArg _ (word_leaves hnext.advance))
  · have hfalse : Skipped [0x66, 0x61, 0x6C, 0x73, 0x65] := .boolFalse
    exact htaken hfalse (congrArg _ (word_leaves hnext.advance))
  · obtain ⟨number, hnumber, rfl⟩ := skipNumber_leaves hnext.advance
    have hnegative : IsText (0x2D :: number.map blur) := hnumber.clear.map_blur.symm ▸ .negative hnumber
    exact htaken (show Skipped (0x2D :: number) from hnegative) rfl
  · obtain ⟨content, hcontent, rfl⟩ := skipString_leaves hnext.advance
    have hstring : Skipped (0x22 :: (content ++ [0x22])) := by
      rw [Skipped, List.map_cons, List.map_append]
      exact .string ⟨_, hcontent, rfl⟩
    exact htaken hstring (by simp)
  · obtain ⟨body, hbody, rfl⟩ := h.items hnext.advance
    have harray : Skipped (0x5B :: (body ++ [0x5D])) := by
      rw [Skipped, List.map_cons, List.map_append]
      exact .array hbody
    exact htaken harray (by simp)
  · obtain ⟨body, hbody, rfl⟩ := h.members hnext.advance
    have hobject : Skipped (0x7B :: (body ++ [0x7D])) := by
      rw [Skipped, List.map_cons, List.map_append]
      exact .object hbody
    exact htaken hobject (by simp)
  · split at hnext
    · obtain ⟨number, hnumber, hsplit⟩ := skipNumber_leaves hnext
      have hskipped : Skipped number := by
        rw [Skipped, hnumber.clear.map_blur]
        exact .number hnumber
      exact htaken hskipped hsplit
    · exact absurd hnext (fails_failNext _).not_leaves

/-- An item that has been skipped behind its separator, and the items after it. -/
theorem exists_isItems_cons {limit : Nat} (h : SkipsText limit) {first : Bool}
    {separator text rest : List UInt8} {x : Unit} (hseparator : Separates first separator)
    (hleaves : Leaves (do skipValueUpTo limit; skipItemsUpTo limit false) text x rest) :
    ∃ body, IsItems first (body.map blur) ∧ separator ++ text = body ++ 0x5D :: rest := by
  obtain ⟨u, between, hvalue, hitems⟩ := hleaves.bind
  obtain ⟨blanks, written, hblanks, hwritten, rfl⟩ := h.value hvalue
  obtain ⟨body, hbody, rfl⟩ := h.items hitems
  have hseparates := hseparator.append_blanks hblanks
  refine ⟨separator ++ blanks ++ (written ++ body), ?_, by simp⟩
  rw [List.map_append, hseparates.clear.map_blur, List.map_append]
  exact .cons hseparates hwritten hbody

theorem skipItemsUpTo_leaves {limit : Nat} (h : SkipsText limit) {first : Bool} {x : Unit}
    (hleaves : (skipItemsUpTo (limit + 1) first).Leaves text x rest) :
    ∃ body, IsItems first (body.map blur) ∧ text = body ++ 0x5D :: rest := by
  rw [skipItemsUpTo] at hleaves
  obtain ⟨blanks, b, tail, hblanks, rfl, -, hnext⟩ := hleaves.pastBlanks_some (fails_failNext _)
  split at hnext
  · next hb => cases hb
  · next hb =>
    cases hb
    rw [hnext.advance_only]
    exact ⟨blanks, by rw [(clear_of_blanks hblanks).map_blur]; exact .nil hblanks, rfl⟩
  · next hb =>
    cases hb
    split at hnext
    · next hfirst =>
      subst hfirst
      exact exists_isItems_cons h (show Separates true blanks from hblanks) hnext
    · next hfirst =>
      rw [Bool.not_eq_true] at hfirst
      subst hfirst
      split at hnext
      · next hcomma =>
        subst hcomma
        obtain ⟨body, hbody, hsplit⟩ := exists_isItems_cons h (separates_at_comma hblanks) hnext.advance
        exact ⟨body, hbody, by rw [← hsplit]; simp⟩
      · exact absurd hnext (fails_failNext _).not_leaves

theorem skipMembersUpTo_leaves {limit : Nat} (h : SkipsText limit) {first : Bool} {x : Unit}
    (hleaves : (skipMembersUpTo (limit + 1) first).Leaves text x rest) :
    ∃ body, IsMembers first (body.map blur) ∧ text = body ++ 0x7D :: rest := by
  have hcons {separator more : List UInt8} (hseparator : Separates first separator)
      (hmember : (skipMemberUpTo limit).Leaves more x rest) :
      ∃ body, IsMembers first (body.map blur) ∧ separator ++ more = body ++ 0x7D :: rest := by
    obtain ⟨back, body, hback, rfl, hbody⟩ := h.member hmember
    have hseparates := hseparator.append_blanks hback
    refine ⟨separator ++ back ++ body, ?_, by simp⟩
    rw [List.map_append, hseparates.clear.map_blur]
    exact hbody hseparates
  rw [skipMembersUpTo] at hleaves
  obtain ⟨blanks, b, tail, hblanks, rfl, -, hnext⟩ := hleaves.pastBlanks_some (fails_failNext _)
  split at hnext
  · next hb => cases hb
  · next hb =>
    cases hb
    rw [hnext.advance_only]
    exact ⟨blanks, by rw [(clear_of_blanks hblanks).map_blur]; exact .nil hblanks, rfl⟩
  · next hb =>
    cases hb
    split at hnext
    · next hfirst =>
      subst hfirst
      exact hcons (show Separates true blanks from hblanks) hnext
    · next hfirst =>
      rw [Bool.not_eq_true] at hfirst
      subst hfirst
      split at hnext
      · next hcomma =>
        subst hcomma
        obtain ⟨body, hbody, hsplit⟩ := hcons (separates_at_comma hblanks) hnext.advance
        exact ⟨body, hbody, by rw [← hsplit]; simp⟩
      · exact absurd hnext (fails_failNext _).not_leaves

theorem skipMemberUpTo_leaves {limit : Nat} (h : SkipsText limit) {x : Unit}
    (hleaves : (skipMemberUpTo (limit + 1)).Leaves text x rest) :
    ∃ blanks body, Blanks blanks ∧ text = blanks ++ (body ++ 0x7D :: rest) ∧
      ∀ {first separator}, Separates first separator → IsMembers first (separator ++ body.map blur) := by
  rw [skipMemberUpTo] at hleaves
  obtain ⟨blanks, b, tail, hblanks, rfl, -, hnext⟩ := hleaves.pastBlanks_some (fails_failNext _)
  split at hnext
  · next hb => cases hb
  · next hb =>
    cases hb
    obtain ⟨u, between, hname, hcolon⟩ := hnext.advance.bind
    obtain ⟨content, hcontent, rfl⟩ := skipString_leaves hname
    obtain ⟨before, b, tail, hbefore, rfl, -, hlast⟩ := hcolon.pastBlanks_some (fails_failNext _)
    split at hlast
    · next hb => cases hb
    · next hb =>
      cases hb
      obtain ⟨u, between, hvalue, hmembers⟩ := hlast.advance.bind
      obtain ⟨behind, written, hbehind, hwritten, rfl⟩ := h.value hvalue
      obtain ⟨body, hbody, rfl⟩ := h.members hmembers
      refine ⟨blanks, 0x22 :: (content ++ 0x22 :: (before ++ 0x3A :: (behind ++ (written ++ body)))),
        hblanks, by simp, fun hseparator => ?_⟩
      have hname : IsString (0x22 :: (content.map blur ++ [0x22])) := ⟨_, hcontent, rfl⟩
      have hmembers := IsMembers.cons hseparator hname hbefore hbehind hwritten hbody
      simpa [blur, (clear_of_blanks hbefore).map_blur, (clear_of_blanks hbehind).map_blur] using hmembers
    · exact absurd hlast (fails_failNext _).not_leaves
  · exact absurd hnext (fails_failNext _).not_leaves

theorem skipsText (limit : Nat) : SkipsText limit := by
  induction limit with
  | zero =>
    constructor
    · exact fun _ _ _ h => absurd h (fails_failHere _).not_leaves
    · exact fun h => absurd h (fails_failHere _).not_leaves
    · exact fun h => absurd h (fails_failHere _).not_leaves
    · exact fun h => absurd h (fails_failHere _).not_leaves
  | succ limit ih =>
    exact ⟨skipValueUpTo_demands ih, skipItemsUpTo_leaves ih, skipMembersUpTo_leaves ih,
      skipMemberUpTo_leaves ih⟩

/-- What is skipped has the form of a value, the bytes past ASCII aside. -/
theorem demands_skipValue : skipValue.Demands fun _ => Skipped :=
  fun _ _ _ h => by
    rw [skipValue] at h
    exact (skipsText _).value h.remaining

end Reader

end StatQuery.Json
