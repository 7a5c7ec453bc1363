import StatQuery.Proofs.Json.Skipped

/-!
# Skipped text that is UTF-8

Where the bytes past ASCII are those of whole characters, a text that can be skipped is JSON
(`isText_of_skipped`): characters past ASCII may stand in strings only, and there they may stand as they
are. The text is followed along the grammar of its blurred form, and what is still to come stays a list
of whole characters. The other way round, JSON is always written in whole characters (`IsText.whole`).
-/

namespace StatQuery.Json

open Reader Utf8

/-- A character that begins with an ASCII byte has no other byte. -/
theorem encodeChar_tail_eq_nil {c : Char} {b : UInt8} {tail : List UInt8}
    (h : encodeChar c = b :: tail) (hb : b < 0x80) : tail = [] := by
  have hnext := next?_encodeChar_append c []
  rw [List.append_nil, h, next?, if_pos hb] at hnext
  exact (Prod.mk.inj (Option.some.inj hnext)).2

/-- A byte that looks clear is the byte itself, and a character. -/
theorem exists_of_blur_cons {cs : List Char} {b : UInt8} {rest : List UInt8} (hb : b ≠ 0x78)
    (h : (encodeChars cs).map blur = b :: rest) :
    ∃ cs', encodeChars cs = b :: encodeChars cs' ∧ (encodeChars cs').map blur = rest := by
  cases cs with
  | nil => cases h
  | cons c cs =>
    obtain ⟨first, tail, hbytes, -, -⟩ := encodeChar_bytes c
    rw [encodeChars_cons, hbytes] at h ⊢
    obtain ⟨hfirst, hrest⟩ := List.cons.inj h
    by_cases hlt : first < 0x80
    · rw [blur_of_lt hlt] at hfirst
      obtain rfl := encodeChar_tail_eq_nil hbytes hlt
      exact ⟨cs, by rw [hfirst]; rfl, hrest⟩
    · rw [blur_of_not_lt hlt] at hfirst
      exact absurd hfirst.symm hb

theorem Clear.exists_sharp {text : List UInt8} (h : Clear text) {cs : List Char} {rest : List UInt8}
    (hblur : (encodeChars cs).map blur = text ++ rest) :
    ∃ cs', encodeChars cs = text ++ encodeChars cs' ∧ (encodeChars cs').map blur = rest := by
  induction text generalizing cs with
  | nil => exact ⟨cs, rfl, hblur⟩
  | cons b text ih =>
    obtain ⟨hb, hclear⟩ := List.forall_mem_cons.1 h
    obtain ⟨cs', hcs, hmore⟩ := exists_of_blur_cons hb.2 hblur
    obtain ⟨cs'', hcs', hrest⟩ := ih hclear hmore
    exact ⟨cs'', by rw [hcs, hcs', List.cons_append], hrest⟩

theorem clear_null : Clear nullText := by simp [Clear, nullText]

theorem clear_true : Clear [0x74, 0x72, 0x75, 0x65] := by simp [Clear]

theorem clear_false : Clear [0x66, 0x61, 0x6C, 0x73, 0x65] := by simp [Clear]

/-- No byte of an escape is blurred or looks so. -/
theorem clear_of_plainEscape? {b content : UInt8} (h : plainEscape? b = some content) :
    Clear [0x5C, b] := by
  have hblur := plainEscape?_blur b
  have hb : b < 0x80 ∧ b ≠ 0x78 := by
    constructor
    · by_contra hnot
      rw [blur_of_not_lt hnot, h] at hblur
      cases hblur
    · rintro rfl
      cases h
  exact clear_cons (by decide) (clear_cons hb (List.forall_mem_nil _))

theorem clear_of_hexValue? {b : UInt8} {value : Nat} (h : hexValue? b = some value) :
    b < 0x80 ∧ b ≠ 0x78 := by
  have hblur := hexValue?_blur b
  constructor
  · by_contra hnot
    rw [blur_of_not_lt hnot, h] at hblur
    cases hblur
  · rintro rfl
    cases h

theorem clear_of_hexWord? {a b c d : UInt8} {code : Nat} (h : hexWord? a b c d = some code) :
    Clear [0x5C, 0x75, a, b, c, d] := by
  simp only [hexWord?, Option.bind_eq_bind, Option.bind_eq_some_iff] at h
  obtain ⟨_, ha, _, hb, _, hc, _, hd, -⟩ := h
  have hdigits : Clear [a, b, c, d] := by
    simp [Clear, clear_of_hexValue? ha, clear_of_hexValue? hb, clear_of_hexValue? hc,
      clear_of_hexValue? hd]
  exact clear_cons (by decide) (clear_cons (by decide) hdigits)

theorem literal_of_blur {b : UInt8} (h : Literal (blur b)) : Literal b := by
  by_cases hb : b < 0x80
  · rwa [blur_of_lt hb] at h
  · refine ⟨?_, ?_, ?_⟩
    · rintro rfl
      exact hb (by decide)
    · rintro rfl
      exact hb (by decide)
    · exact fun hlt => hb (UInt8.lt_trans hlt (by decide))

theorem blur_of_isContinuation {b : UInt8} (h : isContinuation b = true) : blur b = 0x78 := by
  refine blur_of_not_lt fun hlt => ?_
  rw [isContinuation_of_lt hlt] at h
  cases h

/-- What is left over of a character shows as letters. -/
theorem left_eq_nil {left more rest : List UInt8} {b : UInt8}
    (hleft : ∀ b ∈ left, isContinuation b = true) (hb : b ≠ 0x78)
    (h : (left ++ more).map blur = b :: rest) : left = [] := by
  cases left with
  | nil => rfl
  | cons x left =>
    have hfirst : blur x = b := (List.cons.inj h).1
    rw [blur_of_isContinuation (hleft x (by simp))] at hfirst
    exact absurd hfirst.symm hb

/-- Content up to the closing quote. The blurred form shows a letter for each byte of a character, so
that some bytes of one may be left over. -/
theorem exists_content {content : List UInt8} (h : IsContent content) {left : List UInt8}
    {cs : List Char} {rest : List UInt8} (hleft : ∀ b ∈ left, isContinuation b = true)
    (hblur : (left ++ encodeChars cs).map blur = content ++ 0x22 :: rest) :
    ∃ sharp cs', IsContent sharp ∧ encodeChars cs = sharp ++ 0x22 :: encodeChars cs' ∧
      (encodeChars cs').map blur = rest := by
  induction h generalizing left cs with
  | nil =>
    obtain rfl := left_eq_nil hleft (by decide) hblur
    obtain ⟨cs', hcs, hrest⟩ := exists_of_blur_cons (by decide) hblur
    exact ⟨[], cs', .nil, hcs, hrest⟩
  | @char c content hc hquote hslash _ ih =>
    obtain ⟨b, tail, hbytes, -, -⟩ := encodeChar_bytes c
    have hliteral : Literal b := literal_of_mem_encodeChar hc hquote hslash b (by simp [hbytes])
    rw [hbytes, List.append_assoc, List.cons_append] at hblur
    cases left with
    | cons x left =>
      obtain ⟨hfirst, hmore⟩ := List.cons.inj hblur
      obtain rfl := encodeChar_tail_eq_nil hbytes (hfirst ▸ blur_lt x)
      exact ih (fun b hb => hleft b (List.mem_cons_of_mem _ hb)) hmore
    | nil =>
      cases cs with
      | nil => cases hblur
      | cons c' cs =>
        obtain ⟨x, left, hbytes', -, hleft'⟩ := encodeChar_bytes c'
        rw [List.nil_append, encodeChars_cons, hbytes'] at hblur
        obtain ⟨hfirst, hmore⟩ := List.cons.inj hblur
        obtain rfl := encodeChar_tail_eq_nil hbytes (hfirst ▸ blur_lt x)
        obtain ⟨sharp, cs', hsharp, hcs, hrest⟩ := ih hleft' hmore
        have hplain := unescaped_of_literal hbytes' (literal_of_blur (hfirst ▸ hliteral))
        refine ⟨_, cs', .char hplain.1 hplain.2.1 hplain.2.2 hsharp, ?_, hrest⟩
        rw [encodeChars_cons, hcs, List.append_assoc]
  | @short b _ content hb _ ih =>
    obtain rfl := left_eq_nil hleft (by decide) hblur
    obtain ⟨cs', hcs, hmore⟩ := (clear_of_plainEscape? hb).exists_sharp hblur
    obtain ⟨sharp, cs'', hsharp, hcs', hrest⟩ := ih (List.forall_mem_nil _) hmore
    exact ⟨_, cs'', .short hb hsharp, by rw [hcs, hcs']; rfl, hrest⟩
  | @unit a b c d code content hword _ ih =>
    obtain rfl := left_eq_nil hleft (by decide) hblur
    obtain ⟨cs', hcs, hmore⟩ := (clear_of_hexWord? hword).exists_sharp hblur
    obtain ⟨sharp, cs'', hsharp, hcs', hrest⟩ := ih (List.forall_mem_nil _) hmore
    exact ⟨_, cs'', .unit hword hsharp, by rw [hcs, hcs']; rfl, hrest⟩

theorem exists_string {text : List UInt8} (h : IsString text) {cs : List Char} {rest : List UInt8}
    (hblur : (encodeChars cs).map blur = text ++ rest) :
    ∃ sharp cs', IsString sharp ∧ encodeChars cs = sharp ++ encodeChars cs' ∧
      (encodeChars cs').map blur = rest := by
  obtain ⟨content, hcontent, rfl⟩ := h
  rw [List.cons_append, List.append_assoc, List.singleton_append] at hblur
  obtain ⟨cs', hcs, hmore⟩ := exists_of_blur_cons (by decide) hblur
  obtain ⟨sharp, cs'', hsharp, hcs', hrest⟩ :=
    exists_content hcontent (List.forall_mem_nil _) hmore
  exact ⟨_, cs'', ⟨sharp, hsharp, rfl⟩, by rw [hcs, hcs']; simp, hrest⟩

mutual

/-- A value whose blurred form begins what whole characters are blurred to. -/
theorem exists_text : ∀ {text : List UInt8}, IsText text → ∀ {cs : List Char} {rest : List UInt8},
    (encodeChars cs).map blur = text ++ rest → ∃ sharp cs', IsText sharp ∧
      encodeChars cs = sharp ++ encodeChars cs' ∧ (encodeChars cs').map blur = rest
  | _, .null, cs, rest, hblur => by
    obtain ⟨cs', hcs, hrest⟩ := clear_null.exists_sharp hblur
    exact ⟨_, cs', .null, hcs, hrest⟩
  | _, .boolTrue, cs, rest, hblur => by
    obtain ⟨cs', hcs, hrest⟩ := clear_true.exists_sharp hblur
    exact ⟨_, cs', .boolTrue, hcs, hrest⟩
  | _, .boolFalse, cs, rest, hblur => by
    obtain ⟨cs', hcs, hrest⟩ := clear_false.exists_sharp hblur
    exact ⟨_, cs', .boolFalse, hcs, hrest⟩
  | _, .number h, cs, rest, hblur => by
    obtain ⟨cs', hcs, hrest⟩ := h.clear.exists_sharp hblur
    exact ⟨_, cs', .number h, hcs, hrest⟩
  | _, .negative h, cs, rest, hblur => by
    obtain ⟨cs', hcs, hrest⟩ := (clear_cons (by decide) h.clear).exists_sharp hblur
    exact ⟨_, cs', .negative h, hcs, hrest⟩
  | _, .string h, cs, rest, hblur => by
    obtain ⟨sharp, cs', hsharp, hcs, hrest⟩ := exists_string h hblur
    exact ⟨sharp, cs', .string hsharp, hcs, hrest⟩
  | _, .array h, cs, rest, hblur => by
    rw [List.cons_append, List.append_assoc, List.singleton_append] at hblur
    obtain ⟨cs', hcs, hmore⟩ := exists_of_blur_cons (by decide) hblur
    obtain ⟨body, cs'', hbody, hcs', hclose⟩ := exists_items h hmore
    obtain ⟨cs₃, hcs'', hrest⟩ := exists_of_blur_cons (by decide) hclose
    exact ⟨_, cs₃, .array hbody, by rw [hcs, hcs', hcs'']; simp, hrest⟩
  | _, .object h, cs, rest, hblur => by
    rw [List.cons_append, List.append_assoc, List.singleton_append] at hblur
    obtain ⟨cs', hcs, hmore⟩ := exists_of_blur_cons (by decide) hblur
    obtain ⟨body, cs'', hbody, hcs', hclose⟩ := exists_members h hmore
    obtain ⟨cs₃, hcs'', hrest⟩ := exists_of_blur_cons (by decide) hclose
    exact ⟨_, cs₃, .object hbody, by rw [hcs, hcs', hcs'']; simp, hrest⟩

theorem exists_items : ∀ {first : Bool} {body : List UInt8}, IsItems first body →
    ∀ {cs : List Char} {rest : List UInt8}, (encodeChars cs).map blur = body ++ rest →
      ∃ sharp cs', IsItems first sharp ∧ encodeChars cs = sharp ++ encodeChars cs' ∧
        (encodeChars cs').map blur = rest
  | _, _, .nil h, cs, rest, hblur => by
    obtain ⟨cs', hcs, hrest⟩ := (clear_of_blanks h).exists_sharp hblur
    exact ⟨_, cs', .nil h, hcs, hrest⟩
  | _, _, .cons hseparator htext hmore, cs, rest, hblur => by
    rw [List.append_assoc, List.append_assoc] at hblur
    obtain ⟨cs', hcs, hblur'⟩ := hseparator.clear.exists_sharp hblur
    obtain ⟨text, cs'', htext', hcs', hblur''⟩ := exists_text htext hblur'
    obtain ⟨more, cs₃, hmore', hcs'', hrest⟩ := exists_items hmore hblur''
    exact ⟨_, cs₃, .cons hseparator htext' hmore', by rw [hcs, hcs', hcs'']; simp, hrest⟩

theorem exists_members : ∀ {first : Bool} {body : List UInt8}, IsMembers first body →
    ∀ {cs : List Char} {rest : List UInt8}, (encodeChars cs).map blur = body ++ rest →
      ∃ sharp cs', IsMembers first sharp ∧ encodeChars cs = sharp ++ encodeChars cs' ∧
        (encodeChars cs').map blur = rest
  | _, _, .nil h, cs, rest, hblur => by
    obtain ⟨cs', hcs, hrest⟩ := (clear_of_blanks h).exists_sharp hblur
    exact ⟨_, cs', .nil h, hcs, hrest⟩
  | _, _, .cons hseparator hname hbefore hbehind htext hmore, cs, rest, hblur => by
    simp only [List.append_assoc, List.cons_append] at hblur
    obtain ⟨cs₁, hcs, hblur⟩ := hseparator.clear.exists_sharp hblur
    obtain ⟨name, cs₂, hname, hcs₁, hblur⟩ := exists_string hname hblur
    obtain ⟨cs₃, hcs₂, hblur⟩ := (clear_of_blanks hbefore).exists_sharp hblur
    obtain ⟨cs₄, hcs₃, hblur⟩ := exists_of_blur_cons (by decide) hblur
    obtain ⟨cs₅, hcs₄, hblur⟩ := (clear_of_blanks hbehind).exists_sharp hblur
    obtain ⟨text, cs₆, htext, hcs₅, hblur⟩ := exists_text htext hblur
    obtain ⟨more, cs₇, hmore, hcs₆, hrest⟩ := exists_members hmore hblur
    refine ⟨_, cs₇, .cons hseparator hname hbefore hbehind htext hmore, ?_, hrest⟩
    rw [hcs, hcs₁, hcs₂, hcs₃, hcs₄, hcs₅, hcs₆]
    simp

end

/-- What is skipped is JSON if it consists of whole characters. -/
theorem isText_of_skipped {text : List UInt8} (h : Skipped text) (hwhole : Whole text) : IsText text := by
  obtain ⟨cs, rfl⟩ := hwhole
  have hblur : (encodeChars cs).map blur = (encodeChars cs).map blur ++ [] := (List.append_nil _).symm
  obtain ⟨sharp, cs', hsharp, hcs, hrest⟩ := exists_text h hblur
  rwa [hcs, List.map_eq_nil_iff.1 hrest, List.append_nil]

/-- Behind clear bytes a character begins. -/
theorem Clear.whole_rest {run more : List UInt8} (hrun : Clear run) (h : Whole (run ++ more)) :
    Whole more := by
  obtain ⟨cs, hcs⟩ := h
  have hblur : (encodeChars cs).map blur = run ++ more.map blur := by
    rw [hcs, List.map_append, hrun.map_blur]
  obtain ⟨cs', hcs', -⟩ := hrun.exists_sharp hblur
  rw [hcs] at hcs'
  exact ⟨cs', (List.append_cancel_left hcs').symm⟩

theorem exists_head_of_clear {run : List UInt8} (h : Clear run) {b : UInt8} (rest : List UInt8)
    (hb : b < 0x80) : ∃ first tail, run ++ b :: rest = first :: tail ∧ first < 0x80 := by
  cases run with
  | nil => exact ⟨b, rest, rfl, hb⟩
  | cons first run => exact ⟨first, _, rfl, (h first (by simp)).1⟩

/-- What follows a member begins a character. -/
theorem MembersText.exists_head {members : List (String × List UInt8)} {body : List UInt8}
    (h : MembersText members false body) (rest : List UInt8) :
    ∃ first tail, body ++ 0x7D :: rest = first :: tail ∧ first < 0x80 := by
  cases members with
  | nil => exact exists_head_of_clear (clear_of_blanks h) rest (by decide)
  | cons member members =>
    obtain ⟨separator, nameText, before, behind, more, hseparator, -, -, -, -, rfl⟩ := h
    obtain ⟨front, back, hfront, -, rfl⟩ : ∃ front back, _ := hseparator
    simp only [List.append_assoc, List.cons_append]
    exact exists_head_of_clear (clear_of_blanks hfront) _ (by decide)

/-- The values of members that are skipped are JSON where the body is written in whole characters. -/
theorem MembersText.isText_of_skipped {members : List (String × List UInt8)} {first : Bool}
    {body rest : List UInt8} (h : MembersText members first body) (hwhole : Whole (body ++ 0x7D :: rest))
    (hvalues : ∀ member ∈ members, IsText member.2 ∨ Skipped member.2) :
    ∀ member ∈ members, IsText member.2 := by
  induction members generalizing first body with
  | nil => simp
  | cons member members ih =>
    obtain ⟨name, text⟩ := member
    obtain ⟨separator, nameText, before, behind, more, -, -, -, hbehind, hmore, rfl⟩ := h
    have hcolon : Whole ((separator ++ (nameText ++ before)) ++
        0x3A :: (behind ++ (text ++ (more ++ 0x7D :: rest)))) := by
      simpa using hwhole
    have hclear : Clear (0x3A :: behind) := clear_cons (by decide) (clear_of_blanks hbehind)
    have hvalue := hclear.whole_rest (hcolon.split (by decide)).2
    obtain ⟨b, tail, hhead, hb⟩ := hmore.exists_head rest
    rw [hhead] at hvalue
    obtain ⟨htext, hrest⟩ := hvalue.split (isContinuation_of_lt hb)
    rw [← hhead] at hrest
    refine List.forall_mem_cons.2 ⟨?_, ih hmore hrest fun member hmem =>
      hvalues member (List.mem_cons_of_mem _ hmem)⟩
    rcases hvalues (name, text) (by simp) with hsharp | hskipped
    · exact hsharp
    · exact Json.isText_of_skipped hskipped htext

/-! ### JSON is written in whole characters -/

theorem Clear.whole {text : List UInt8} (h : Clear text) : Whole text := by
  induction text with
  | nil => exact ⟨[], rfl⟩
  | cons b text ih =>
    obtain ⟨hb, hclear⟩ := List.forall_mem_cons.1 h
    exact .cons hb.1 (ih hclear)

theorem IsContent.whole {content : List UInt8} (h : IsContent content) : Whole content := by
  induction h with
  | nil => exact ⟨[], rfl⟩
  | @char c _ _ _ _ _ ih =>
    have hfirst : Whole (encodeChar c) := ⟨[c], by simp⟩
    exact hfirst.append ih
  | short hb _ ih => exact (clear_of_plainEscape? hb).whole.append ih
  | unit hword _ ih => exact (clear_of_hexWord? hword).whole.append ih

theorem IsString.whole {text : List UInt8} (h : IsString text) : Whole text := by
  obtain ⟨content, hcontent, rfl⟩ := h
  exact hcontent.whole.between (by decide) (by decide)

mutual

/-- JSON is written in whole characters. -/
theorem IsText.whole : ∀ {text : List UInt8}, IsText text → Whole text
  | _, .null => clear_null.whole
  | _, .boolTrue => clear_true.whole
  | _, .boolFalse => clear_false.whole
  | _, .number h => h.clear.whole
  | _, .negative h => .cons (by decide) h.clear.whole
  | _, .string h => h.whole
  | _, .array h => h.whole.between (by decide) (by decide)
  | _, .object h => h.whole.between (by decide) (by decide)

theorem IsItems.whole : ∀ {first : Bool} {body : List UInt8}, IsItems first body → Whole body
  | _, _, .nil h => (clear_of_blanks h).whole
  | _, _, .cons hseparator htext hmore => hseparator.clear.whole.append (htext.whole.append hmore.whole)

theorem IsMembers.whole : ∀ {first : Bool} {body : List UInt8}, IsMembers first body → Whole body
  | _, _, .nil h => (clear_of_blanks h).whole
  | _, _, .cons hseparator hname hbefore hbehind htext hmore => by
    have hvalue := (clear_of_blanks hbehind).whole.append (htext.whole.append hmore.whole)
    have hcolon := (clear_of_blanks hbefore).whole.append (.cons (b := 0x3A) (by decide) hvalue)
    exact hseparator.clear.whole.append (hname.whole.append hcolon)

end

end StatQuery.Json
