import StatQuery.Json.Skip
import StatQuery.Proofs.Json.Grammar
import StatQuery.Proofs.Json.Reading

/-!
# Skipping values

Whatever has the form of a JSON value is skipped as a whole (`skipValue_isText`). The loops that skip
items and members spend at most two steps on a byte, so twice the length of the text bounds them at
every depth; the induction is on how the text is built.
-/

namespace StatQuery.Json

/-- A value has a byte or more, so a bound above its length allows a step. -/
theorem IsText.exists_step {text : List UInt8} (h : IsText text) {limit : Nat}
    (hlimit : 2 * text.length ≤ limit) : ∃ left, limit = left + 1 := by
  have := h.length_pos
  exact ⟨limit - 1, by omega⟩

namespace Reader

/-! ### Strings -/

theorem skipStringUpTo_literals {bytes : List UInt8} (h : ∀ b ∈ bytes, Literal b) (limit : Nat)
    (rest : List UInt8) (p : Position) :
    skipStringUpTo (limit + bytes.length) ⟨bytes ++ rest, p⟩ =
      skipStringUpTo limit ⟨rest, p.afterAll bytes⟩ := by
  induction bytes generalizing p with
  | nil => rfl
  | cons b bytes ih =>
    obtain ⟨hquote, hslash, hcontrol⟩ := h b (by simp)
    rw [List.length_cons, ← Nat.add_assoc, skipStringUpTo, bind_of_ok (peek_eq _ p)]
    simp only [List.cons_append, List.head?_cons]
    rw [if_neg hquote, if_neg hslash, if_neg hcontrol, bind_of_ok (advance_cons b _ p)]
    exact ih (fun b hb => h b (by simp [hb])) _

theorem skipStringUpTo_escape {limit : Nat} {text rest : List UInt8} {p p' : Position}
    (h : skipEscape ⟨text, p.after 0x5C⟩ = .ok ((), ⟨rest, p'⟩)) :
    skipStringUpTo (limit + 1) ⟨0x5C :: text, p⟩ = skipStringUpTo limit ⟨rest, p'⟩ := by
  rw [skipStringUpTo, bind_of_ok (peek_eq _ p)]
  simp only [List.head?_cons]
  rw [if_neg (by decide), if_pos trivial, bind_of_ok (advance_cons _ text p), bind_of_ok h]

theorem skipEscape_short {b content : UInt8} (h : plainEscape? b = some content)
    (rest : List UInt8) (p : Position) :
    skipEscape ⟨b :: rest, p⟩ = .ok ((), ⟨rest, p.after b⟩) := by
  rw [skipEscape, bind_of_ok (peek_eq _ p)]
  simp only [List.head?_cons]
  rw [bind_of_ok (advance_cons b rest p), if_neg (encodeChar_plainEscape? h).2, h]
  rfl

theorem skipEscape_unit {a b c d : UInt8} {code : Nat} (h : hexWord? a b c d = some code)
    (rest : List UInt8) (p : Position) :
    skipEscape ⟨0x75 :: a :: b :: c :: d :: rest, p⟩ =
      .ok ((), ⟨rest, p.afterAll [0x75, a, b, c, d]⟩) := by
  rw [skipEscape, bind_of_ok (peek_eq _ p)]
  simp only [List.head?_cons]
  rw [bind_of_ok (advance_cons _ _ p), if_pos trivial]
  change Except.bind (hexUnit _) (fun result => Except.ok ((), result.2)) = _
  rw [hexUnit_word h rest _]
  rfl

theorem skipStringUpTo_content {content : List UInt8} (h : IsContent content) (rest : List UInt8)
    (p : Position) {limit : Nat} (hlimit : content.length < limit) :
    skipStringUpTo limit ⟨content ++ 0x22 :: rest, p⟩ =
      .ok ((), ⟨rest, p.afterAll (content ++ [0x22])⟩) := by
  induction h generalizing p limit with
  | nil =>
    obtain ⟨left, rfl⟩ : ∃ left, limit = left + 1 := ⟨limit - 1, by omega⟩
    rfl
  | @char c tail hc hquote hslash _ ih =>
    rw [List.length_append] at hlimit
    obtain ⟨left, rfl⟩ : ∃ left, limit = left + (Utf8.encodeChar c).length :=
      ⟨limit - (Utf8.encodeChar c).length, by omega⟩
    rw [List.append_assoc, skipStringUpTo_literals (literal_of_mem_encodeChar hc hquote hslash),
      ih _ (by omega), List.append_assoc, Position.afterAll_append p (Utf8.encodeChar c)]
  | short hb _ ih =>
    simp only [List.length_cons] at hlimit
    obtain ⟨left, rfl⟩ : ∃ left, limit = left + 1 := ⟨limit - 1, by omega⟩
    simp only [List.cons_append]
    rw [skipStringUpTo_escape (skipEscape_short hb _ _), ih _ (by omega)]
    rfl
  | unit hword _ ih =>
    simp only [List.length_cons] at hlimit
    obtain ⟨left, rfl⟩ : ∃ left, limit = left + 1 := ⟨limit - 1, by omega⟩
    simp only [List.cons_append]
    rw [skipStringUpTo_escape (skipEscape_unit hword _ _), ih _ (by omega)]
    rfl

theorem skipString_content {content : List UInt8} (h : IsContent content) (rest : List UInt8)
    (p : Position) :
    skipString ⟨content ++ 0x22 :: rest, p⟩ = .ok ((), ⟨rest, p.afterAll (content ++ [0x22])⟩) := by
  have hlimit : content.length < (content ++ 0x22 :: rest).length + 1 := by
    rw [List.length_append]
    omega
  rw [skipString, bind_of_ok (remaining_eq _ p), skipStringUpTo_content h rest p hlimit]

/-! ### Numbers -/

theorem digits_run {text rest : List UInt8} (h : IsDigits text) (hrest : EndsRun isDigit rest)
    (p : Position) : digits ⟨text ++ rest, p⟩ = .ok (text, ⟨rest, p.afterAll text⟩) :=
  takeRun_run p h.2 hrest

/-- Digits that must be there are taken. -/
theorem digits_required {text rest : List UInt8} (h : IsDigits text) (hrest : EndsRun isDigit rest)
    (next : Reader Unit) (p : Position) :
    (do
      let written ← digits
      if written.isEmpty then failNext .invalidNumber else next : Reader Unit) ⟨text ++ rest, p⟩ =
      next ⟨rest, p.afterAll text⟩ := by
  have hempty : text.isEmpty = false := by simpa using h.1
  rw [bind_of_ok (digits_run h hrest p), hempty]
  rfl

theorem skipExponent_power {e : UInt8} {sign text rest : List UInt8}
    (hsign : sign = [] ∨ sign = [0x2B] ∨ sign = [0x2D]) (h : IsDigits text)
    (hrest : EndsRun isDigit rest) (p : Position) :
    skipExponent ⟨e :: (sign ++ (text ++ rest)), p⟩ =
      .ok ((), ⟨rest, p.afterAll (e :: (sign ++ text))⟩) := by
  rw [skipExponent, bind_of_ok (advance_cons e _ p), bind_of_ok (peek_eq _ _)]
  rcases hsign with rfl | rfl | rfl
  · -- Without a sign the digits begin at once.
    obtain ⟨b, tail, rfl, hb⟩ := h.exists_cons
    simp only [List.nil_append, List.cons_append, List.head?_cons]
    generalize hhead : some b = head
    split
    · cases hhead
      exact absurd hb (by decide)
    · cases hhead
      exact absurd hb (by decide)
    · exact digits_required h hrest (pure ()) _
  · simp only [List.cons_append, List.nil_append, List.head?_cons]
    rw [bind_of_ok (advance_cons _ _ _)]
    exact digits_required h hrest (pure ()) _
  · simp only [List.cons_append, List.nil_append, List.head?_cons]
    rw [bind_of_ok (advance_cons _ _ _)]
    exact digits_required h hrest (pure ()) _

/-- Where an exponent may follow, it is skipped if it does. -/
theorem skipExponent_if_any {exponent rest : List UInt8} (h : IsExponent exponent)
    (hrest : Delimited rest) (p : Position) :
    (do
      match ← peek with
      | some 0x65 | some 0x45 => skipExponent
      | _ => return : Reader Unit) ⟨exponent ++ rest, p⟩ =
      .ok ((), ⟨rest, p.afterAll exponent⟩) := by
  rw [bind_of_ok (peek_eq _ p)]
  cases h with
  | absent =>
    simp only [List.nil_append]
    generalize hhead : rest.head? = head
    split
    · exact absurd rfl (hrest _ hhead).2.2.1
    · exact absurd rfl (hrest _ hhead).2.2.2
    · rfl
  | power he hsign hdigits =>
    have hends : EndsRun isDigit rest := fun b hb => (hrest b hb).1
    simp only [List.cons_append, List.append_assoc, List.head?_cons]
    rcases he with rfl | rfl
    · exact skipExponent_power hsign hdigits hends p
    · exact skipExponent_power hsign hdigits hends p

/-- Without a point only an exponent may follow. -/
theorem skipAfterWhole_of_no_point {rest : List UInt8} (h : rest.head? ≠ some 0x2E) (p : Position) :
    skipAfterWhole ⟨rest, p⟩ =
      (do
        match ← peek with
        | some 0x65 | some 0x45 => skipExponent
        | _ => return : Reader Unit) ⟨rest, p⟩ := by
  rw [skipAfterWhole, bind_of_ok (peek_eq rest p), bind_of_ok (peek_eq rest p)]
  generalize rest.head? = head at h
  split
  · exact absurd rfl h
  · rfl
  · rfl
  · next hlower hupper =>
    split
    · exact absurd rfl hlower
    · exact absurd rfl hupper
    · rfl

theorem head?_ne_point {exponent rest : List UInt8} (h : IsExponent exponent)
    (hrest : Delimited rest) : (exponent ++ rest).head? ≠ some 0x2E := by
  intro hhead
  cases h with
  | absent => exact absurd rfl (hrest _ hhead).2.1
  | power he => rcases he with rfl | rfl <;> cases hhead

theorem skipAfterWhole_tail {fraction exponent rest : List UInt8} (hfraction : IsFraction fraction)
    (hexponent : IsExponent exponent) (hrest : Delimited rest) (p : Position) :
    skipAfterWhole ⟨fraction ++ (exponent ++ rest), p⟩ =
      .ok ((), ⟨rest, p.afterAll (fraction ++ exponent)⟩) := by
  cases hfraction with
  | absent =>
    rw [List.nil_append, skipAfterWhole_of_no_point (head?_ne_point hexponent hrest)]
    exact skipExponent_if_any hexponent hrest p
  | @point text hdigits =>
    rw [skipAfterWhole, bind_of_ok (peek_eq _ p)]
    simp only [List.cons_append, List.head?_cons]
    rw [bind_of_ok (advance_cons _ _ p), Position.afterAll_cons, Position.afterAll_append,
      ← skipExponent_if_any hexponent hrest]
    exact digits_required hdigits (hexponent.endsRun hrest) _ _

/-- The digits before the point are skipped. -/
theorem skipNumber_decimal (n : Nat) {rest : List UInt8} (hrest : EndsRun isDigit rest)
    (p : Position) :
    skipNumber ⟨decimal n ++ rest, p⟩ = skipAfterWhole ⟨rest, p.afterAll (decimal n)⟩ := by
  obtain ⟨b, tail, hcons, hzero⟩ := exists_decimal_eq_cons n
  have hdigit : isDigit b = true := isDigit_of_mem_decimal n b (by simp [hcons])
  have hdigits := takeRun_run p (isDigit_of_mem_decimal n) hrest
  rw [skipNumber, bind_of_ok (peek_eq _ p)]
  generalize hhead : (decimal n ++ rest).head? = head
  split
  · have hb : b = 0x30 := by simpa [hcons] using hhead
    obtain rfl := hzero hb
    rw [decimal_of_lt (by omega), List.singleton_append, bind_of_ok (advance_cons _ rest p),
      bind_of_ok (peek_eq rest _)]
    cases rest with
    | nil => rfl
    | cons c rest =>
      have hc : isDigit c = false := hrest c (by simp)
      simp only [List.head?_cons, hc]
      rfl
  · next c _ =>
    have hb : b = c := by simpa [hcons] using hhead
    rw [if_pos (hb ▸ hdigit)]
    change (discard (takeRun isDigit) >>= fun _ => skipAfterWhole) _ = _
    have hdiscard : (discard (takeRun isDigit) : Reader Unit) ⟨decimal n ++ rest, p⟩ =
        .ok ((), ⟨rest, p.afterAll (decimal n)⟩) := by
      change Except.bind (takeRun isDigit _) (fun result => Except.ok ((), result.2)) = _
      rw [hdigits]
      rfl
    rw [bind_of_ok hdiscard]
  · simp [hcons] at hhead

theorem skipNumber_isMagnitude {text rest : List UInt8} (h : IsMagnitude text)
    (hrest : Delimited rest) (p : Position) :
    skipNumber ⟨text ++ rest, p⟩ = .ok ((), ⟨rest, p.afterAll text⟩) := by
  obtain ⟨whole, hfraction, hexponent⟩ := h
  have hends := hfraction.endsRun (hexponent.endsRun hrest)
  simp only [List.append_assoc]
  rw [skipNumber_decimal whole hends, skipAfterWhole_tail hfraction hexponent hrest,
    Position.afterAll_append p (decimal whole)]

/-! ### Values -/

theorem skipValueUpTo_digit {limit : Nat} {b : UInt8} {tail : List UInt8} (hb : isDigit b = true)
    (h : ∀ rest p, Delimited rest →
      skipNumber ⟨b :: (tail ++ rest), p⟩ = .ok ((), ⟨rest, p.afterAll (b :: tail)⟩)) :
    Takes (skipValueUpTo (limit + 1)) (b :: tail) () := by
  rw [skipValueUpTo]
  refine takes_peekValue (isBlank_eq_false_of_isDigit hb) fun rest p hrest => ?_
  split
  all_goals first
    | exact absurd hb (by decide)
    | rw [if_pos hb]; exact h rest p hrest

/-- An item and what stands before it are skipped, and the loop goes on. -/
theorem skipItemsUpTo_cons {first : Bool} {separator text tail : List UInt8} {limit : Nat}
    (hseparator : Separates first separator) (htext : IsText text)
    (hvalue : Takes (skipValueUpTo limit) text ()) (htail : Delimited tail) (p : Position) :
    skipItemsUpTo (limit + 1) first ⟨separator ++ (text ++ tail), p⟩ =
      skipItemsUpTo limit false ⟨tail, p.afterAll (separator ++ text)⟩ := by
  cases first with
  | true =>
    obtain ⟨b, rest, rfl, hblank, hclose, -⟩ := htext.exists_cons
    have hread := hvalue [] tail (p.afterAll separator) Blanks.nil htail
    simp only [List.nil_append, List.cons_append] at hread ⊢
    rw [skipItemsUpTo, bind_of_ok (peekPastBlanks_cons _ p hseparator hblank)]
    generalize hhead : some b = head
    split
    · cases hhead
    · cases hhead
      exact absurd rfl hclose
    · change (skipValueUpTo limit >>= fun _ => skipItemsUpTo limit false) _ = _
      rw [bind_of_ok hread, Position.afterAll_append]
  | false =>
    obtain ⟨before, behind, hbefore, hbehind, rfl⟩ : ∃ before behind, _ := hseparator
    have hread := hvalue behind tail (p.afterAll (before ++ [0x2C])) hbehind htail
    rw [List.append_assoc, List.cons_append, skipItemsUpTo,
      bind_of_ok (peekPastBlanks_cons _ p hbefore (by decide))]
    change (advance >>= fun _ => skipValueUpTo limit >>= fun _ => skipItemsUpTo limit false) _ = _
    rw [bind_of_ok (advance_cons _ _ _)]
    simp only [Position.afterAll_append, Position.afterAll_cons, Position.afterAll_nil] at hread ⊢
    rw [bind_of_ok hread]

/-- A member is skipped, and the loop goes on. -/
theorem skipMemberUpTo_cons {blanks name before behind text tail : List UInt8} {limit : Nat}
    (hblanks : Blanks blanks) (hname : IsString name) (hbefore : Blanks before)
    (hbehind : Blanks behind) (hvalue : Takes (skipValueUpTo limit) text ()) (htail : Delimited tail)
    (p : Position) :
    skipMemberUpTo (limit + 1)
        ⟨blanks ++ (name ++ (before ++ 0x3A :: (behind ++ (text ++ tail)))), p⟩ =
      skipMembersUpTo limit false
        ⟨tail, p.afterAll (blanks ++ (name ++ (before ++ 0x3A :: (behind ++ text))))⟩ := by
  obtain ⟨content, hcontent, rfl⟩ := hname
  simp only [List.cons_append, List.append_assoc, List.nil_append]
  rw [skipMemberUpTo, bind_of_ok (peekPastBlanks_cons _ p hblanks (by decide))]
  change (advance >>= fun _ => skipString >>= fun _ => peekPastBlanks >>= _) _ = _
  rw [bind_of_ok (advance_cons _ _ _), bind_of_ok (skipString_content hcontent _ _),
    bind_of_ok (peekPastBlanks_cons _ _ hbefore (by decide))]
  change (advance >>= fun _ => skipValueUpTo limit >>= fun _ => skipMembersUpTo limit false) _ = _
  rw [bind_of_ok (advance_cons _ _ _), bind_of_ok (hvalue behind tail _ hbehind htail)]
  simp only [Position.afterAll_append, Position.afterAll_cons, Position.afterAll_nil]

theorem skipMembersUpTo_cons {first : Bool} {separator name before behind text tail : List UInt8}
    {limit : Nat} (hseparator : Separates first separator) (hname : IsString name)
    (hbefore : Blanks before) (hbehind : Blanks behind)
    (hvalue : Takes (skipValueUpTo limit) text ()) (htail : Delimited tail) (p : Position) :
    skipMembersUpTo (limit + 2) first
        ⟨separator ++ (name ++ (before ++ 0x3A :: (behind ++ (text ++ tail)))), p⟩ =
      skipMembersUpTo limit false
        ⟨tail, p.afterAll (separator ++ (name ++ (before ++ 0x3A :: (behind ++ text))))⟩ := by
  cases first with
  | true =>
    have hmember := skipMemberUpTo_cons Blanks.nil hname hbefore hbehind hvalue htail
      (p.afterAll separator)
    obtain ⟨content, hcontent, rfl⟩ := hname
    simp only [List.nil_append, List.cons_append] at hmember ⊢
    rw [skipMembersUpTo, bind_of_ok (peekPastBlanks_cons _ p hseparator (by decide))]
    change skipMemberUpTo (limit + 1) _ = _
    rw [hmember, Position.afterAll_append]
  | false =>
    obtain ⟨front, back, hfront, hback, rfl⟩ : ∃ front back, _ := hseparator
    have hmember := skipMemberUpTo_cons hback hname hbefore hbehind hvalue htail
      (p.afterAll (front ++ [0x2C]))
    rw [List.append_assoc, List.cons_append, skipMembersUpTo,
      bind_of_ok (peekPastBlanks_cons _ p hfront (by decide))]
    change (advance >>= fun _ => skipMemberUpTo (limit + 1)) _ = _
    rw [bind_of_ok (advance_cons _ _ _)]
    simp only [Position.afterAll_append, Position.afterAll_cons, Position.afterAll_nil] at hmember ⊢
    rw [hmember]

mutual

/-- A value is skipped as a whole if the bound allows two steps for each of its bytes. -/
theorem skipValueUpTo_isText : ∀ {text : List UInt8}, IsText text → ∀ {limit : Nat},
    2 * text.length ≤ limit → Takes (skipValueUpTo limit) text ()
  | _, .null, limit, hlimit => by
    obtain ⟨left, rfl⟩ := IsText.null.exists_step hlimit
    rw [skipValueUpTo]
    exact takes_peekValue (by decide) fun rest p _ => rfl
  | _, .boolTrue, limit, hlimit => by
    obtain ⟨left, rfl⟩ := IsText.boolTrue.exists_step hlimit
    rw [skipValueUpTo]
    exact takes_peekValue (by decide) fun rest p _ => rfl
  | _, .boolFalse, limit, hlimit => by
    obtain ⟨left, rfl⟩ := IsText.boolFalse.exists_step hlimit
    rw [skipValueUpTo]
    exact takes_peekValue (by decide) fun rest p _ => rfl
  | _, .number h, limit, hlimit => by
    obtain ⟨left, rfl⟩ := (IsText.number h).exists_step hlimit
    obtain ⟨b, tail, rfl, hb⟩ := h.exists_cons
    exact skipValueUpTo_digit hb fun rest p hrest => skipNumber_isMagnitude h hrest p
  | _, .negative h, limit, hlimit => by
    obtain ⟨left, rfl⟩ := (IsText.negative h).exists_step hlimit
    rw [skipValueUpTo]
    refine takes_peekValue (by decide) fun rest p hrest => ?_
    change (advance >>= fun _ => skipNumber) _ = _
    rw [bind_of_ok (advance_cons _ _ p), skipNumber_isMagnitude h hrest]
    rfl
  | _, .string h, limit, hlimit => by
    obtain ⟨left, rfl⟩ := (IsText.string h).exists_step hlimit
    obtain ⟨content, hcontent, rfl⟩ := h
    rw [skipValueUpTo]
    refine takes_peekValue (by decide) fun rest p _ => ?_
    change (advance >>= fun _ => skipString) _ = _
    rw [List.append_assoc, List.singleton_append, bind_of_ok (advance_cons _ _ p),
      skipString_content hcontent rest]
    rfl
  | _, .array h, limit, hlimit => by
    obtain ⟨left, rfl⟩ := (IsText.array h).exists_step hlimit
    simp only [List.length_cons, List.length_append, List.length_nil] at hlimit
    rw [skipValueUpTo]
    refine takes_peekValue (by decide) fun rest p _ => ?_
    have hitems := skipItemsUpTo_isItems h (show _ < left by omega) rest (p.after 0x5B)
    change (advance >>= fun _ => skipItemsUpTo left true) _ = _
    rw [List.append_assoc, List.singleton_append, bind_of_ok (advance_cons _ _ p), hitems]
    rfl
  | _, .object h, limit, hlimit => by
    obtain ⟨left, rfl⟩ := (IsText.object h).exists_step hlimit
    simp only [List.length_cons, List.length_append, List.length_nil] at hlimit
    rw [skipValueUpTo]
    refine takes_peekValue (by decide) fun rest p _ => ?_
    have hmembers := skipMembersUpTo_isMembers h (show _ < left by omega) rest (p.after 0x7B)
    change (advance >>= fun _ => skipMembersUpTo left true) _ = _
    rw [List.append_assoc, List.singleton_append, bind_of_ok (advance_cons _ _ p), hmembers]
    rfl

theorem skipItemsUpTo_isItems : ∀ {first : Bool} {body : List UInt8}, IsItems first body →
    ∀ {limit : Nat}, 2 * body.length < limit → ∀ rest p,
      skipItemsUpTo limit first ⟨body ++ 0x5D :: rest, p⟩ =
        .ok ((), ⟨rest, p.afterAll (body ++ [0x5D])⟩)
  | _, _, .nil h, limit, hlimit => by
    intro rest p
    obtain ⟨left, rfl⟩ : ∃ left, limit = left + 1 := ⟨limit - 1, by omega⟩
    rw [skipItemsUpTo, bind_of_ok (peekPastBlanks_cons rest p h (by decide)),
      Position.afterAll_append]
    rfl
  | first, _, .cons hseparator htext hmore, limit, hlimit => by
    intro rest p
    simp only [List.length_append] at hlimit
    obtain ⟨left, rfl⟩ : ∃ left, limit = left + 1 := ⟨limit - 1, by omega⟩
    have hlength := htext.length_pos
    have hvalue := skipValueUpTo_isText htext (show _ ≤ left by omega)
    have hitems := skipItemsUpTo_isItems hmore (show _ < left by omega) rest
    rw [List.append_assoc, List.append_assoc,
      skipItemsUpTo_cons hseparator htext hvalue (hmore.delimited rest), hitems]
    simp only [Position.afterAll_append, Position.afterAll_cons]

theorem skipMembersUpTo_isMembers : ∀ {first : Bool} {body : List UInt8}, IsMembers first body →
    ∀ {limit : Nat}, 2 * body.length < limit → ∀ rest p,
      skipMembersUpTo limit first ⟨body ++ 0x7D :: rest, p⟩ =
        .ok ((), ⟨rest, p.afterAll (body ++ [0x7D])⟩)
  | _, _, .nil h, limit, hlimit => by
    intro rest p
    obtain ⟨left, rfl⟩ : ∃ left, limit = left + 1 := ⟨limit - 1, by omega⟩
    rw [skipMembersUpTo, bind_of_ok (peekPastBlanks_cons rest p h (by decide)),
      Position.afterAll_append]
    rfl
  | first, _, .cons hseparator hname hbefore hbehind htext hmore, limit, hlimit => by
    intro rest p
    simp only [List.length_append, List.length_cons] at hlimit
    obtain ⟨left, rfl⟩ : ∃ left, limit = left + 2 := ⟨limit - 2, by omega⟩
    have hvalue := skipValueUpTo_isText htext (show _ ≤ left by omega)
    have hmembers := skipMembersUpTo_isMembers hmore (show _ < left by omega) rest
    simp only [List.append_assoc, List.cons_append]
    rw [skipMembersUpTo_cons hseparator hname hbefore hbehind hvalue (hmore.delimited rest),
      hmembers]
    simp only [Position.afterAll_append, Position.afterAll_cons]

end

/-- Whatever has the form of a value is skipped. -/
theorem skipValue_isText {text : List UInt8} (h : IsText text) : Takes skipValue text () := by
  intro blanks rest p hblanks hrest
  have hlimit : 2 * text.length ≤ 4 * ((blanks ++ (text ++ rest)).length + 1) := by
    simp only [List.length_append]
    omega
  rw [skipValue, bind_of_ok (remaining_eq _ p)]
  exact skipValueUpTo_isText h hlimit blanks rest p hblanks hrest

end Reader

end StatQuery.Json
