import StatQuery.Proofs.Json.Skipped

/-!
# Skipping does not look past ASCII

What a loop of skipping makes of a blurred text it makes of the text itself (`Reader.Mirrors`): where
another byte than an ASCII one decides, it decides as a letter does. So whatever is `Skipped` is skipped
(`skipValue_skipped`).
-/

namespace StatQuery.Json.Reader

variable {α β : Type}

theorem after_blur (p : Position) (b : UInt8) : p.after (blur b) = p.after b := by
  by_cases hb : b < 0x80
  · rw [blur_of_lt hb]
  · have hline : b ≠ 10 := by
      rintro rfl
      exact hb (by decide)
    rw [blur_of_not_lt hb, Position.after, Position.after, if_neg (by decide), if_neg hline]

theorem afterAll_blur (p : Position) (text : List UInt8) :
    p.afterAll (text.map blur) = p.afterAll text := by
  induction text generalizing p with
  | nil => rfl
  | cons b text ih => rw [List.map_cons, Position.afterAll_cons, after_blur, ih, Position.afterAll_cons]

/-- What `blurred` makes of a text without the bytes past ASCII, the reader makes of the text. -/
def Mirrors (blurred reader : Reader α) : Prop :=
  ∀ ⦃text : List UInt8⦄ ⦃p : Position⦄ ⦃x : α⦄ ⦃left : List UInt8⦄ ⦃p' : Position⦄,
    blurred ⟨text.map blur, p⟩ = .ok (x, ⟨left, p'⟩) →
      ∃ rest, reader ⟨text, p⟩ = .ok (x, ⟨rest, p'⟩) ∧ rest.map blur = left ∧ rest <:+ text

theorem Mirrors.bind {blurred reader : Reader α} {blurred' reader' : α → Reader β}
    (h : Mirrors blurred reader) (hnext : ∀ x, Mirrors (blurred' x) (reader' x)) :
    Mirrors (blurred >>= blurred') (reader >>= reader') := by
  intro text p x left p' hread
  cases hfirst : blurred ⟨text.map blur, p⟩ with
  | error e =>
    rw [bind_of_error hfirst] at hread
    cases hread
  | ok result =>
    obtain ⟨y, between, q⟩ := result
    rw [bind_of_ok hfirst] at hread
    obtain ⟨rest, hmirror, rfl, hsuffix⟩ := h hfirst
    obtain ⟨rest', hmirror', hleft, hsuffix'⟩ := hnext y hread
    exact ⟨rest', (bind_of_ok hmirror).trans hmirror', hleft, hsuffix'.trans hsuffix⟩

theorem mirrors_pure (x : α) : Mirrors (pure x) (pure x) := by
  intro text p y left p' hread
  cases hread
  exact ⟨text, rfl, rfl, List.suffix_refl text⟩

theorem Fails.mirrors {blurred reader : Reader α} (h : Fails blurred) : Mirrors blurred reader := by
  intro text p x left p' hread
  obtain ⟨e, he⟩ := h ⟨text.map blur, p⟩
  rw [he] at hread
  cases hread

theorem mirrors_advance : Mirrors advance advance := by
  intro text p x left p' hread
  cases text with
  | nil =>
    cases hread
    exact ⟨[], rfl, rfl, List.suffix_refl _⟩
  | cons b text =>
    rw [List.map_cons, advance_cons, after_blur] at hread
    cases hread
    exact ⟨text, rfl, rfl, List.suffix_cons b text⟩

theorem mirrors_takeRun {inRun : UInt8 → Bool} (hrun : ∀ b, inRun b = true → b < 0x80)
    (hletter : inRun 0x78 = false) : Mirrors (takeRun inRun) (takeRun inRun) := by
  have hblur (b : UInt8) : inRun (blur b) = inRun b := by
    by_cases hb : b < 0x80
    · rw [blur_of_lt hb]
    · rw [blur_of_not_lt hb, hletter, Bool.eq_false_iff.2 fun h => hb (hrun b h)]
  intro text p x left p' hread
  obtain ⟨hsplit, hall, hends⟩ := Leaves.takeRun ⟨p, p', hread⟩
  obtain ⟨run, rest, rfl, rfl, rfl⟩ := List.map_eq_append_iff.1 hsplit
  have hall' : ∀ b ∈ run, inRun b = true := fun b hb => by
    rw [← hblur]
    exact hall _ (List.mem_map_of_mem hb)
  have hends' : EndsRun inRun rest := by
    cases rest with
    | nil => simp [EndsRun]
    | cons b rest => simpa [EndsRun, hblur] using hends
  have hsame : run.map blur = run := map_blur_of_lt fun b hb => hrun b (hall' b hb)
  rw [hsame, List.map_append, hsame, takeRun_run p hall' hends] at hread
  cases hread
  exact ⟨rest, by rw [hsame]; exact takeRun_run p hall' hends', rfl, List.suffix_append run rest⟩

theorem Mirrors.discard {blurred reader : Reader α} (h : Mirrors blurred reader) :
    Mirrors (discard blurred) (discard reader) :=
  h.bind fun _ => mirrors_pure ()

theorem mirrors_skipBlanks : Mirrors skipBlanks skipBlanks :=
  (mirrors_takeRun (fun _ h => (clear_of_isBlank h).1) rfl).discard

/-- A byte past ASCII decides as a letter, or a letter leads to a failure. -/
theorem mirrors_peek {next : Option UInt8 → Reader α} (hself : ∀ head, Mirrors (next head) (next head))
    (hletter : Fails (next (some 0x78)) ∨ ∀ b, ¬ b < 0x80 → next (some b) = next (some 0x78)) :
    Mirrors (peek >>= next) (peek >>= next) := by
  intro text p x left p' hread
  rw [bind_of_ok (peek_eq _ p)] at hread
  rw [bind_of_ok (peek_eq _ p)]
  cases text with
  | nil => exact hself none hread
  | cons b text =>
    rw [List.head?_map, List.head?_cons, Option.map_some] at hread
    rw [List.head?_cons]
    by_cases hb : b < 0x80
    · rw [blur_of_lt hb] at hread
      exact hself (some b) hread
    · rw [blur_of_not_lt hb] at hread
      rcases hletter with hfails | hsame
      · exact hfails.mirrors hread
      · rw [hsame b hb]
        exact hself (some 0x78) hread

theorem mirrors_remaining {next : Nat → Reader α} (h : ∀ n, Mirrors (next n) (next n)) :
    Mirrors (remaining >>= next) (remaining >>= next) := by
  intro text p x left p' hread
  rw [bind_of_ok (remaining_eq _ p), List.length_map] at hread
  rw [bind_of_ok (remaining_eq _ p)]
  exact h _ hread

theorem mirrors_peekPastBlanks {next : Option UInt8 → Reader α}
    (hself : ∀ head, Mirrors (next head) (next head))
    (hletter : Fails (next (some 0x78)) ∨ ∀ b, ¬ b < 0x80 → next (some b) = next (some 0x78)) :
    Mirrors (peekPastBlanks >>= next) (peekPastBlanks >>= next) := by
  rw [peekPastBlanks, bind_assoc]
  exact mirrors_skipBlanks.bind fun _ => mirrors_peek hself hletter

theorem Fails.before {reader : Reader α} (h : Fails reader) (next : α → Reader β) :
    Fails (reader >>= next) := by
  intro c
  obtain ⟨e, he⟩ := h c
  exact ⟨e, bind_of_error he⟩

theorem mirrors_peekValue {next : UInt8 → Reader α} (hself : ∀ b, Mirrors (next b) (next b))
    (hletter : Fails (next 0x78)) : Mirrors (peekValue >>= next) (peekValue >>= next) := by
  rw [peekValue, bind_assoc]
  refine mirrors_peekPastBlanks (fun head => ?_) (.inl ?_)
  · cases head with
    | none => exact ((fails_failNext _).before next).mirrors
    | some b => exact (mirrors_pure b).bind hself
  · intro c
    exact hletter c

/-! ### Strings and numbers -/

theorem mirrors_hexUnit : Mirrors hexUnit hexUnit := by
  intro text p code left p' hread
  obtain ⟨a, b, c, d, hsplit, hword⟩ := hexUnit_leaves ⟨p, p', hread⟩
  obtain ⟨digits, rest, rfl, hdigits, rfl⟩ :=
    List.map_eq_append_iff.1 (show text.map blur = [a, b, c, d] ++ left from hsplit)
  match digits, hdigits with
  | [a', b', c', d'], hdigits =>
    cases hdigits
    have hword' := (hexWord?_blur a' b' c' d').symm.trans hword
    rw [hsplit, hexUnit_word hword] at hread
    cases hread
    have hread := hexUnit_word hword' rest p
    rw [← afterAll_blur] at hread
    exact ⟨rest, hread, rfl, List.suffix_append _ rest⟩

theorem mirrors_skipEscape : Mirrors skipEscape skipEscape := by
  refine mirrors_peek (fun head => ?_) (.inl ?_)
  · split
    · exact (fails_failHere _).mirrors
    · refine mirrors_advance.bind fun _ => ?_
      split
      · exact mirrors_hexUnit.discard
      · split
        · exact mirrors_pure ()
        · exact (fails_failHere _).mirrors
  · exact .after (fun _ => fails_failHere _) _

theorem mirrors_skipStringUpTo (limit : Nat) :
    Mirrors (skipStringUpTo limit) (skipStringUpTo limit) := by
  induction limit with
  | zero => exact (fails_failHere _).mirrors
  | succ limit ih =>
    refine mirrors_peek (fun head => ?_) (.inr fun b hb => ?_)
    · split
      · exact (fails_failHere _).mirrors
      · split
        · exact mirrors_advance
        split
        · exact mirrors_advance.bind fun _ => mirrors_skipEscape.bind fun _ => ih
        split
        · exact (fails_failHere _).mirrors
        · exact mirrors_advance.bind fun _ => ih
    · have hquote : b ≠ 0x22 := by
        rintro rfl
        exact hb (by decide)
      have hslash : b ≠ 0x5C := by
        rintro rfl
        exact hb (by decide)
      have hcontrol : ¬ b < 0x20 := fun h => hb (UInt8.lt_trans h (by decide))
      dsimp only
      rw [if_neg hquote, if_neg hslash, if_neg hcontrol]
      rfl

theorem mirrors_skipString : Mirrors skipString skipString :=
  mirrors_remaining fun _ => mirrors_skipStringUpTo _

theorem mirrors_word {expected : List UInt8} (h : ∀ b ∈ expected, b ≠ 0x78) :
    Mirrors (word expected) (word expected) := by
  induction expected with
  | nil => exact mirrors_pure ()
  | cons c expected ih =>
    have hrest := ih fun b hb => h b (List.mem_cons_of_mem _ hb)
    refine mirrors_peek (fun head => ?_) (.inl ?_)
    · split
      · exact (fails_failHere _).mirrors
      · refine mirrors_advance.bind fun _ => ?_
        split
        · exact hrest
        · exact (fails_failHere _).mirrors
    · refine .after (fun _ => ?_) _
      rw [if_neg fun heq => h c (by simp) heq.symm]
      exact fails_failHere _

theorem mirrors_digits : Mirrors digits digits :=
  mirrors_takeRun (fun _ h => (clear_of_isDigit h).1) rfl

theorem mirrors_digits_required {next : Reader Unit} (h : Mirrors next next) :
    let reader : Reader Unit := do
      let written ← digits
      if written.isEmpty then failNext .invalidNumber else next
    Mirrors reader reader := by
  refine mirrors_digits.bind fun written => ?_
  split
  · exact (fails_failNext _).mirrors
  · exact h

theorem mirrors_skipExponent : Mirrors skipExponent skipExponent := by
  refine mirrors_advance.bind fun _ => ?_
  refine mirrors_peek (fun head => ?_) (.inr fun b hb => ?_)
  · extract_lets afterSign
    have hafter : Mirrors (afterSign ()) (afterSign ()) := mirrors_digits_required (mirrors_pure ())
    split
    · exact mirrors_advance.bind fun _ => hafter
    · exact mirrors_advance.bind fun _ => hafter
    · exact hafter
  · extract_lets afterSign
    split
    · next heq =>
      cases heq
      exact absurd hb (by decide)
    · next heq =>
      cases heq
      exact absurd hb (by decide)
    · rfl

theorem mirrors_skipExponent_if_any :
    let reader : Reader Unit := do
      match ← peek with
      | some 0x65 | some 0x45 => skipExponent
      | _ => return
    Mirrors reader reader := by
  refine mirrors_peek (fun head => ?_) (.inr fun b hb => ?_)
  · split
    · exact mirrors_skipExponent
    · exact mirrors_skipExponent
    · exact mirrors_pure ()
  · split
    · next heq =>
      cases heq
      exact absurd hb (by decide)
    · next heq =>
      cases heq
      exact absurd hb (by decide)
    · rfl

theorem mirrors_skipAfterWhole : Mirrors skipAfterWhole skipAfterWhole := by
  refine mirrors_peek (fun head => ?_) (.inr fun b hb => ?_)
  · split
    · exact mirrors_advance.bind fun _ => mirrors_digits_required mirrors_skipExponent_if_any
    · exact mirrors_skipExponent
    · exact mirrors_skipExponent
    · exact mirrors_pure ()
  · split
    · next heq =>
      cases heq
      exact absurd hb (by decide)
    · next heq =>
      cases heq
      exact absurd hb (by decide)
    · next heq =>
      cases heq
      exact absurd hb (by decide)
    · rfl

theorem mirrors_skipNumber : Mirrors skipNumber skipNumber := by
  refine mirrors_peek (fun head => ?_) (.inl (fails_failNext _))
  split
  · refine mirrors_advance.bind fun _ => mirrors_peek (fun head => ?_) (.inr fun b hb => ?_)
    · split
      · split
        · exact (fails_failNext _).mirrors
        · exact mirrors_skipAfterWhole
      · exact mirrors_pure ()
    · have hdigit : isDigit b = false := Bool.eq_false_iff.2 fun h => hb (clear_of_isDigit h).1
      dsimp only
      rw [hdigit]
      rfl
  · split
    · exact mirrors_digits.discard.bind fun _ => mirrors_skipAfterWhole
    · exact (fails_failNext _).mirrors
  · exact (fails_failNext _).mirrors

/-! ### Values -/

/-- The loops of skipping with a bound do not look past ASCII. -/
structure SkipsBlurred (limit : Nat) : Prop where
  value : Mirrors (skipValueUpTo limit) (skipValueUpTo limit)
  items (first : Bool) : Mirrors (skipItemsUpTo limit first) (skipItemsUpTo limit first)
  members (first : Bool) : Mirrors (skipMembersUpTo limit first) (skipMembersUpTo limit first)
  member : Mirrors (skipMemberUpTo limit) (skipMemberUpTo limit)

variable {limit : Nat}

theorem mirrors_skipValueUpTo (h : SkipsBlurred limit) :
    Mirrors (skipValueUpTo (limit + 1)) (skipValueUpTo (limit + 1)) := by
  rw [skipValueUpTo]
  refine mirrors_peekValue (fun b => ?_) (fails_failNext _)
  split
  · exact mirrors_advance.bind fun _ => mirrors_word (by simp)
  · exact mirrors_advance.bind fun _ => mirrors_word (by simp)
  · exact mirrors_advance.bind fun _ => mirrors_word (by simp)
  · exact mirrors_advance.bind fun _ => mirrors_skipNumber
  · exact mirrors_advance.bind fun _ => mirrors_skipString
  · exact mirrors_advance.bind fun _ => h.items true
  · exact mirrors_advance.bind fun _ => h.members true
  · split
    · exact mirrors_skipNumber
    · exact (fails_failNext _).mirrors

theorem mirrors_skipItemsUpTo (h : SkipsBlurred limit) (first : Bool) :
    Mirrors (skipItemsUpTo (limit + 1) first) (skipItemsUpTo (limit + 1) first) := by
  have hitem : Mirrors (do skipValueUpTo limit; skipItemsUpTo limit false)
      (do skipValueUpTo limit; skipItemsUpTo limit false) := h.value.bind fun _ => h.items false
  rw [skipItemsUpTo]
  refine mirrors_peekPastBlanks (fun head => ?_) (.inr fun b hb => ?_)
  · split
    · exact (fails_failNext _).mirrors
    · exact mirrors_advance
    · split
      · exact hitem
      · split
        · exact mirrors_advance.bind fun _ => hitem
        · exact (fails_failNext _).mirrors
  · split
    · next heq => cases heq
    · next heq =>
      cases heq
      exact absurd hb (by decide)
    · next heq =>
      cases heq
      have hcomma : b ≠ 0x2C := by
        rintro rfl
        exact hb (by decide)
      rw [if_neg hcomma]
      rfl

theorem mirrors_skipMembersUpTo (h : SkipsBlurred limit) (first : Bool) :
    Mirrors (skipMembersUpTo (limit + 1) first) (skipMembersUpTo (limit + 1) first) := by
  rw [skipMembersUpTo]
  refine mirrors_peekPastBlanks (fun head => ?_) (.inr fun b hb => ?_)
  · split
    · exact (fails_failNext _).mirrors
    · exact mirrors_advance
    · split
      · exact h.member
      · split
        · exact mirrors_advance.bind fun _ => h.member
        · exact (fails_failNext _).mirrors
  · split
    · next heq => cases heq
    · next heq =>
      cases heq
      exact absurd hb (by decide)
    · next heq =>
      cases heq
      have hcomma : b ≠ 0x2C := by
        rintro rfl
        exact hb (by decide)
      rw [if_neg hcomma]
      rfl

theorem mirrors_skipMemberUpTo (h : SkipsBlurred limit) :
    Mirrors (skipMemberUpTo (limit + 1)) (skipMemberUpTo (limit + 1)) := by
  rw [skipMemberUpTo]
  refine mirrors_peekPastBlanks (fun head => ?_) (.inl (fails_failNext _))
  split
  · exact (fails_failNext _).mirrors
  · refine mirrors_advance.bind fun _ => mirrors_skipString.bind fun _ => ?_
    refine mirrors_peekPastBlanks (fun head => ?_) (.inl (fails_failNext _))
    split
    · exact (fails_failNext _).mirrors
    · exact mirrors_advance.bind fun _ => h.value.bind fun _ => h.members false
    · exact (fails_failNext _).mirrors
  · exact (fails_failNext _).mirrors

theorem skipsBlurred (limit : Nat) : SkipsBlurred limit := by
  induction limit with
  | zero =>
    exact ⟨(fails_failHere _).mirrors, fun _ => (fails_failHere _).mirrors,
      fun _ => (fails_failHere _).mirrors, (fails_failHere _).mirrors⟩
  | succ limit ih =>
    exact ⟨mirrors_skipValueUpTo ih, mirrors_skipItemsUpTo ih, mirrors_skipMembersUpTo ih,
      mirrors_skipMemberUpTo ih⟩

theorem mirrors_skipValue : Mirrors skipValue skipValue :=
  mirrors_remaining fun _ => (skipsBlurred _).value

theorem delimited_map_blur {rest : List UInt8} (h : Delimited rest) : Delimited (rest.map blur) := by
  cases rest with
  | nil => exact h
  | cons b rest =>
    by_cases hb : b < 0x80
    · rw [List.map_cons, blur_of_lt hb]
      exact delimited_cons _ (h b (by simp))
    · rw [List.map_cons, blur_of_not_lt hb]
      exact delimited_cons _ (by decide)

/-- Whatever would be JSON if the bytes past ASCII were letters is skipped. -/
theorem skipValue_skipped {text : List UInt8} (h : Skipped text) : Takes skipValue text () := by
  intro blanks rest p hblanks hrest
  have hread := skipValue_isText h blanks (rest.map blur) p hblanks (delimited_map_blur hrest)
  have hmap : (blanks ++ (text ++ rest)).map blur =
      blanks ++ (text.map blur ++ rest.map blur) := by
    rw [List.map_append, List.map_append, (clear_of_blanks hblanks).map_blur]
  rw [← hmap] at hread
  obtain ⟨left, hskip, hleft, hsuffix⟩ := mirrors_skipValue hread
  -- What is left is an end of the text and as long as the rest, so it is the rest.
  have hlength : left.length = rest.length := by
    rw [← List.length_map blur, hleft, List.length_map]
  have hends : rest <:+ blanks ++ (text ++ rest) := by
    rw [← List.append_assoc]
    exact List.suffix_append _ rest
  have hleft : left = rest :=
    (List.suffix_of_suffix_length_le hsuffix hends (Nat.le_of_eq hlength)).eq_of_length hlength
  rw [hskip, hleft, Position.afterAll_append, afterAll_blur, Position.afterAll_append]

end StatQuery.Json.Reader
