import StatQuery.Json.Record
import StatQuery.Proofs.Json.Canonical
import StatQuery.Proofs.Json.Grammar
import StatQuery.Proofs.Json.Units
import StatQuery.Proofs.Json.Values

/-!
# What a reader refuses

`Decides reader form` says that a reader tells the JSON values that have a form from all the others:
it takes those and fails on these, and what it makes of a value is what the value is a form of. The
readers of unsigned numbers and of strings decide the decimal texts below `2 ^ 64` and the strings
that stand for Unicode text (`decides_unsigned`, `decides_text`). A string may look like one and still
stand for nothing, if half of a surrogate pair is escaped in it without the other half.
-/

namespace StatQuery.Json

open Reader

/-- The text is the number, without sign, fraction and exponent. -/
def UnsignedWritten (n : UInt64) (text : List UInt8) : Prop := text = decimal n.toNat

namespace Reader

variable {α β : Type}

/-- The reader takes the values that have the form, and refuses all others. -/
structure Decides (reader : Reader α) (form : α → List UInt8 → Prop) : Prop where
  takes {x : α} {text : List UInt8} : IsText text → form x text → reader.Takes text x
  refuses {text : List UInt8} : IsText text → (∀ x, ¬ form x text) → reader.Refuses text

/-! ### Readers that fail everywhere -/

/-- The reader fails, whatever stands before it. -/
def Fails (reader : Reader α) : Prop := ∀ c, ∃ e, reader c = .error e

theorem fails_failHere (cause : Cause) : Fails (failHere cause : Reader α) := fun _ => ⟨_, rfl⟩

theorem fails_failNext (cause : Cause) : Fails (failNext cause : Reader α) := fun _ => ⟨_, rfl⟩

/-- A reader that ends in a failure fails. -/
theorem Fails.after {next : α → Reader β} (h : ∀ x, Fails (next x)) (reader : Reader α) :
    Fails (reader >>= next) := by
  intro c
  cases hread : reader c with
  | error e => exact ⟨e, bind_of_error hread⟩
  | ok result =>
    obtain ⟨x, c'⟩ := result
    obtain ⟨e, he⟩ := h x c'
    exact ⟨e, (bind_of_ok hread).trans he⟩

theorem Fails.refuses {reader : Reader α} (h : Fails reader) (text : List UInt8) :
    reader.Refuses text := fun _ _ _ _ _ => h _

theorem fails_wrongKind (expected : Expected) : Fails (wrongKind expected : Reader α) := by
  have hfault (found : Found) :
      Fails (failHere (.mismatch (.kind found expected)) : Reader α) := fails_failHere _
  refine Fails.after (fun head => ?_) peek
  split
  · exact .after (fun _ => .after (fun _ => hfault _) _) _
  · exact .after (fun _ => .after (fun _ => hfault _) _) _
  · exact .after (fun _ => .after (fun _ => hfault _) _) _
  · exact .after (fun _ => .after (fun _ => hfault _) _) _
  · exact .after (fun _ => .after (fun _ => hfault _) _) _
  · exact hfault _
  · exact hfault _
  · split
    · exact .after (fun _ => hfault _) _
    · exact fails_failNext _
  · exact fails_failNext _

/-- A reader that goes on by the first byte refuses a text with which it cannot go on. -/
theorem refuses_peekValue {next : UInt8 → Reader α} {b : UInt8} {tail : List UInt8}
    (hb : isBlank b = false)
    (h : ∀ rest p, Delimited rest → ∃ e, next b ⟨b :: (tail ++ rest), p⟩ = .error e) :
    Refuses (peekValue >>= next) (b :: tail) := by
  intro blanks rest p hblanks hrest
  obtain ⟨e, he⟩ := h rest (p.afterAll blanks) hrest
  refine ⟨e, ?_⟩
  rw [List.cons_append, bind_of_ok (peekValue_cons _ p hblanks hb), he]

/-! ### Values that may be null -/

/-- The text is `null` if nothing is meant, else a form of what is meant. -/
def NullOr (form : α → List UInt8 → Prop) : Option α → List UInt8 → Prop
  | none, text => text = nullText
  | some x, text => form x text

theorem optional_null {reader : Reader α} : reader.optional.Takes nullText none :=
  takes_peekPastBlanks (by decide) fun _ _ _ => rfl

/-- What is not `null` is left to the reader. -/
theorem optional_of_ne_null {reader : Reader α} {text : List UInt8} (h : IsText text)
    (hnull : text ≠ nullText) {blanks : List UInt8} (rest : List UInt8) (p : Position)
    (hblanks : Blanks blanks) :
    reader.optional ⟨blanks ++ (text ++ rest), p⟩ =
      (some <$> reader) ⟨text ++ rest, p.afterAll blanks⟩ := by
  obtain ⟨b, tail, rfl, hblank, -, hb⟩ := h.exists_cons
  rw [optional, List.cons_append, bind_of_ok (peekPastBlanks_cons _ p hblanks hblank)]
  generalize hhead : some b = head
  split
  · cases hhead
    exact absurd (hb rfl) hnull
  · rfl

theorem Decides.optional {reader : Reader α} {form : α → List UInt8 → Prop}
    (h : reader.Decides form) (hnull : ∀ x, ¬ form x nullText) :
    reader.optional.Decides (NullOr form) where
  takes {x text} htext hx := by
    cases x with
    | none =>
      obtain rfl : text = nullText := hx
      exact optional_null
    | some x =>
      have hne : text ≠ nullText := by
        rintro rfl
        exact hnull x hx
      intro blanks rest p hblanks hrest
      have hread := h.takes htext hx [] rest (p.afterAll blanks) Blanks.nil hrest
      rw [List.nil_append, List.nil_append] at hread
      rw [optional_of_ne_null htext hne rest p hblanks, Position.afterAll_append]
      change Except.bind (reader _) (fun result => Except.ok (some result.1, result.2)) = _
      rw [hread]
      rfl
  refuses {text} htext hform := by
    intro blanks rest p hblanks hrest
    have hx : ∀ x, ¬ form x text := fun x => hform (some x)
    obtain ⟨e, hread⟩ := h.refuses htext hx [] rest (p.afterAll blanks) Blanks.nil hrest
    rw [List.nil_append] at hread
    refine ⟨e, ?_⟩
    rw [optional_of_ne_null htext (hform none) rest p hblanks]
    change Except.bind (reader _) (fun result => Except.ok (some result.1, result.2)) = _
    rw [hread]
    rfl

/-! ### Unsigned numbers -/

/-- The reader makes no natural number of what stands before it. -/
def NeverNatural (reader : Reader Numeral) : Prop :=
  ∀ c (n : Nat) c', reader c ≠ .ok (.integer n, c')

theorem Fails.neverNatural {reader : Reader Numeral} (h : Fails reader) : NeverNatural reader := by
  intro c n c' hread
  obtain ⟨e, he⟩ := h c
  rw [he] at hread
  cases hread

theorem NeverNatural.after {next : α → Reader Numeral} (h : ∀ x, NeverNatural (next x))
    (reader : Reader α) : NeverNatural (reader >>= next) := by
  intro c n c' hread
  cases hfirst : reader c with
  | error e =>
    rw [bind_of_error hfirst] at hread
    cases hread
  | ok result =>
    rw [bind_of_ok hfirst] at hread
    exact h _ _ n c' hread

theorem neverNatural_pure {numeral : Numeral} (h : ∀ n : Nat, numeral ≠ .integer n) :
    NeverNatural (pure numeral) := by
  intro c n c' hread
  exact h n (Prod.mk.inj (Except.ok.inj hread)).1

theorem neverNatural_float (negative : Bool) (significand : Nat) (exponent : Int) :
    NeverNatural (float negative significand exponent) := by
  unfold float
  split
  · exact neverNatural_pure nofun
  · exact (fails_failHere _).neverNatural

theorem neverNatural_exponentPart (negative : Bool) (significand : Nat) (exponent : Int) :
    NeverNatural (exponentPart negative significand exponent) := by
  unfold exponentPart
  refine .after (fun _ => .after (fun head => ?_) _) _
  extract_lets afterSign
  have hdigits (down : Bool) : NeverNatural (afterSign down) := by
    refine .after (fun head => ?_) _
    split
    · exact (fails_failHere _).neverNatural
    · split
      · refine .after (fun start => .after (fun written => ?_) _) _
        split
        · exact neverNatural_float _ _ _
        · split
          · intro c n c' hread
            cases hread
          · exact neverNatural_pure nofun
      · exact Fails.neverNatural (.after (fun _ => fails_failHere _) _)
  split
  · exact .after (fun _ => .after hdigits _) _
  · exact .after (fun _ => .after hdigits _) _
  · exact .after hdigits _

/-- Digits alone make a natural number, if none of them is dropped and there is no sign. -/
theorem afterWhole_ne_natural {negative : Bool} {significand dropped : Nat} {rest : List UInt8}
    {p : Position}
    (h : rest.head? = some 0x2E ∨ rest.head? = some 0x65 ∨ rest.head? = some 0x45 ∨ 0 < dropped ∨
      negative = true) (n : Nat) (c : Cursor) :
    afterWhole negative significand dropped ⟨rest, p⟩ ≠ .ok (.integer n, c) := by
  rw [afterWhole, bind_of_ok (peek_eq rest p)]
  generalize rest.head? = head at h
  split
  · refine NeverNatural.after (fun _ => .after (fun written => ?_) _) _ _ n c
    split
    · refine .after (fun head => ?_) _
      split <;> exact (fails_failNext _).neverNatural
    · refine .after (fun head => ?_) _
      split
      · exact neverNatural_exponentPart _ _ _
      · exact neverNatural_exponentPart _ _ _
      · exact neverNatural_float _ _ _
  · exact neverNatural_exponentPart _ _ _ _ n c
  · exact neverNatural_exponentPart _ _ _ _ n c
  · next hpoint hlower hupper =>
    split
    · exact neverNatural_float _ _ _ _ n c
    · next hdropped =>
      have hnegative : negative = true := by
        rcases h with rfl | rfl | rfl | hpos | hnegative
        · exact absurd rfl hpoint
        · exact absurd rfl hlower
        · exact absurd rfl hupper
        · exact absurd hpos hdropped
        · exact hnegative
      subst hnegative
      split
      · next hnot => cases hnot
      · split
        · exact neverNatural_pure (fun m heq => by cases heq) _ n c
        · next hzero =>
          refine neverNatural_pure (fun m heq => ?_) _ n c
          have hm : -(significand : Int) = m := Numeral.integer.inj heq
          simp only [Bool.or_eq_true, decide_eq_true_eq, not_or] at hzero
          omega

theorem neverNatural_number_true : NeverNatural (number true) := by
  have hwhole (significand dropped : Nat) : NeverNatural (afterWhole true significand dropped) :=
    fun c n c' => afterWhole_ne_natural (.inr (.inr (.inr (.inr rfl)))) n c'
  refine .after (fun head => ?_) _
  split
  · exact (fails_failHere _).neverNatural
  · refine .after (fun _ => .after (fun head => ?_) _) _
    split
    · split
      · exact (fails_failNext _).neverNatural
      · exact hwhole 0 0
    · exact hwhole 0 0
  · split
    · exact .after (fun written => hwhole _ _) _
    · exact Fails.neverNatural (.after (fun _ => fails_failHere _) _)

/-- Only a natural number is unsigned. -/
theorem unsignedOf_error {reader : Reader Numeral} {c : Cursor}
    (h : ∀ (n : Nat) c', reader c ≠ .ok (.integer n, c')) :
    ∃ e, (reader >>= unsignedOf) c = .error e := by
  cases hread : reader c with
  | error e => exact ⟨e, bind_of_error hread⟩
  | ok result =>
    obtain ⟨numeral, c'⟩ := result
    rw [bind_of_ok hread]
    cases numeral with
    | float x => exact ⟨_, rfl⟩
    | integer n =>
      cases n with
      | ofNat n => exact absurd hread (h n c')
      | negSucc n => exact ⟨_, rfl⟩

/-- A number that is no decimal text below `2 ^ 64` has a fraction, an exponent or too many digits. -/
theorem number_ne_natural {text rest : List UInt8} (h : IsMagnitude text)
    (hform : ∀ n, ¬ UnsignedWritten n text) (hrest : Delimited rest) (p : Position) (n : Nat)
    (c : Cursor) : number false ⟨text ++ rest, p⟩ ≠ .ok (.integer n, c) := by
  obtain ⟨whole, hfraction, hexponent⟩ := h
  have hends := hfraction.endsRun (hexponent.endsRun hrest)
  simp only [List.append_assoc]
  rw [number_absorb whole p hends]
  refine afterWhole_ne_natural ?_ n c
  cases hfraction with
  | point hdigits => exact .inl rfl
  | absent =>
    cases hexponent with
    | power he hsign hdigits =>
      rcases he with rfl | rfl
      · exact .inr (.inl rfl)
      · exact .inr (.inr (.inl rfl))
    | absent =>
      have hbig : maxSignificand < whole := by
        by_contra hle
        have hlt : whole < 2 ^ 64 := by
          rw [maxSignificand, twoTo_64] at hle
          omega
        refine hform (UInt64.ofNat whole) ?_
        rw [UnsignedWritten, UInt64.toNat_ofNat', Nat.mod_eq_of_lt hlt]
        simp
      exact .inr (.inr (.inr (.inl (absorbWhole_pos_of_lt hbig))))

/-- What begins neither with a digit nor with a sign is no number. -/
theorem unsigned_refuses {b : UInt8} {tail : List UInt8} (hblank : isBlank b = false)
    (hsign : b ≠ 0x2D) (hdigit : isDigit b = false) : unsigned.Refuses (b :: tail) := by
  rw [unsigned]
  refine refuses_peekValue hblank fun rest p _ => ?_
  split
  · exact absurd rfl hsign
  · rw [hdigit]
    exact fails_wrongKind _ _

theorem unsigned_takes {n : UInt64} {text : List UInt8} (h : UnsignedWritten n text) :
    unsigned.Takes text n := by
  have hfits : Fits (n.toNat : Int) := canonical_uint64 n
  have hread := unsigned_reads n.toNat text ⟨hfits, h⟩
  rwa [show n.toNat.toUInt64 = n from UInt64.ofNat_toNat] at hread

theorem decides_unsigned : unsigned.Decides UnsignedWritten where
  takes _ h := unsigned_takes h
  refuses {text} htext hform := by
    cases htext with
    | null => exact unsigned_refuses (by decide) (by decide) (by decide)
    | boolTrue => exact unsigned_refuses (by decide) (by decide) (by decide)
    | boolFalse => exact unsigned_refuses (by decide) (by decide) (by decide)
    | array _ => exact unsigned_refuses (by decide) (by decide) (by decide)
    | object _ => exact unsigned_refuses (by decide) (by decide) (by decide)
    | string h =>
      obtain ⟨content, -, rfl⟩ := h
      exact unsigned_refuses (by decide) (by decide) (by decide)
    | negative h =>
      rw [unsigned]
      refine refuses_peekValue (by decide) fun rest p _ => ?_
      exact unsignedOf_error fun n c' => neverNatural_number_true _ n c'
    | number h =>
      obtain ⟨b, tail, rfl, hdigit⟩ := h.exists_cons
      rw [unsigned]
      refine refuses_peekValue (isBlank_eq_false_of_isDigit hdigit) fun rest p hrest => ?_
      split
      · exact absurd hdigit (by decide)
      · rw [if_pos hdigit]
        exact unsignedOf_error fun n c' => number_ne_natural h hform hrest p n c'

/-! ### Strings -/

/-- The reader of strings fails on the content, wherever it stands. -/
def Unreadable (content : List UInt8) : Prop :=
  ∀ limit rest p, ∃ e, contentUpTo limit ⟨content ++ 0x22 :: rest, p⟩ = .error e

theorem Unreadable.literal {b : UInt8} {content : List UInt8} (hb : Literal b)
    (h : Unreadable content) : Unreadable (b :: content) := by
  intro limit rest p
  obtain ⟨hquote, hslash, hcontrol⟩ := hb
  cases limit with
  | zero => exact ⟨_, rfl⟩
  | succ limit =>
    obtain ⟨e, hread⟩ := h limit rest (p.after b)
    refine ⟨e, ?_⟩
    rw [contentUpTo, bind_of_ok (peek_eq _ p)]
    simp only [List.cons_append, List.head?_cons]
    rw [bind_of_ok (advance_cons b _ p), if_neg hquote, if_neg hslash, if_neg hcontrol,
      bind_of_error hread]

theorem Unreadable.literals {bytes content : List UInt8} (hbytes : ∀ b ∈ bytes, Literal b)
    (h : Unreadable content) : Unreadable (bytes ++ content) := by
  induction bytes with
  | nil => exact h
  | cons b bytes ih =>
    have hrest := ih fun b hb => hbytes b (by simp [hb])
    exact hrest.literal (hbytes b (by simp))

/-- An escape that fails, or that is followed by unreadable content. -/
theorem unreadable_escape {content : List UInt8}
    (h : ∀ rest p, (∃ e, escape ⟨content ++ 0x22 :: rest, p⟩ = .error e) ∨
      ∃ bytes more p', escape ⟨content ++ 0x22 :: rest, p⟩ =
        .ok (bytes, ⟨more ++ 0x22 :: rest, p'⟩) ∧ Unreadable more) :
    Unreadable (0x5C :: content) := by
  intro limit rest p
  cases limit with
  | zero => exact ⟨_, rfl⟩
  | succ limit =>
    rw [contentUpTo, bind_of_ok (peek_eq _ p)]
    simp only [List.cons_append, List.head?_cons]
    rw [bind_of_ok (advance_cons _ _ p), if_neg (by decide), if_pos trivial]
    rcases h rest (p.after 0x5C) with ⟨e, hescape⟩ | ⟨bytes, more, p', hescape, hmore⟩
    · exact ⟨e, bind_of_error hescape⟩
    · obtain ⟨e, hread⟩ := hmore limit rest p'
      refine ⟨e, ?_⟩
      rw [bind_of_ok hescape, bind_of_error hread]

/-- However a character is written, it does not make unreadable content readable. -/
theorem Unreadable.char {c : Char} {head content : List UInt8} (hc : CharWritten c head)
    (h : Unreadable content) : Unreadable (head ++ content) := by
  cases hc with
  | itself hcontrol hquote hslash =>
    exact h.literals (literal_of_mem_encodeChar hcontrol hquote hslash)
  | short hb =>
    exact unreadable_escape fun rest p => .inr ⟨_, _, _, escape_short hb _ p, h⟩
  | unit hword hcode =>
    exact unreadable_escape fun rest p => .inr ⟨_, _, _, escape_unit hword hcode _ p, h⟩
  | pair hhigh hlow h1 h2 h3 h4 =>
    exact unreadable_escape fun rest p => .inr ⟨_, _, _, escape_pair hhigh hlow h1 h2 h3 h4 _ p, h⟩

/-- The latter half of a surrogate pair does not stand alone. -/
theorem unreadable_low {a b c d : UInt8} {code : Nat} (hword : hexWord? a b c d = some code)
    (h1 : 0xDC00 ≤ code) (h2 : code ≤ 0xDFFF) (content : List UInt8) :
    Unreadable (0x5C :: 0x75 :: a :: b :: c :: d :: content) := by
  refine unreadable_escape fun rest p => .inl ?_
  simp only [List.cons_append]
  rw [escape, bind_of_ok (peek_eq _ p)]
  simp only [List.head?_cons]
  rw [bind_of_ok (advance_cons _ _ p), if_pos trivial, unicodeEscape, bind_of_ok (hexUnit_word hword _ _),
    if_pos (by simp only [Bool.and_eq_true, decide_eq_true_eq]; omega)]
  exact ⟨_, rfl⟩

theorem pairByte_ne {b c : UInt8} (h : c ≠ b) (rest : List UInt8) (p : Position) :
    ∃ e, pairByte b ⟨c :: rest, p⟩ = .error e := by
  rw [pairByte, bind_of_ok (peek_eq _ p)]
  simp only [List.head?_cons]
  rw [bind_of_ok (advance_cons c rest p), if_neg h]
  exact ⟨_, rfl⟩

/-- The former half of a surrogate pair stands before an escape of the latter. -/
theorem unreadable_high {a b c d : UInt8} {high : Nat} (hword : hexWord? a b c d = some high)
    (h1 : 0xD800 ≤ high) (h2 : high ≤ 0xDBFF) {content : List UInt8}
    (h : ∀ rest p, ∃ e, lowHalf high ⟨content ++ 0x22 :: rest, p⟩ = .error e) :
    Unreadable (0x5C :: 0x75 :: a :: b :: c :: d :: content) := by
  refine unreadable_escape fun rest p => .inl ?_
  simp only [List.cons_append]
  rw [escape_high hword h1 h2]
  exact h rest _

/-- The content stands for these characters, or it cannot be read. -/
def StandsFor (outcome : Option (List Char)) (content : List UInt8) : Prop :=
  match outcome with
  | some cs => CharsWritten cs content
  | none => Unreadable content

theorem StandsFor.char {outcome : Option (List Char)} {c : Char} {head content : List UInt8}
    (hc : CharWritten c head) (h : StandsFor outcome content) :
    StandsFor (outcome.map (c :: ·)) (head ++ content) := by
  cases outcome with
  | some cs => exact ⟨head, content, hc, h, rfl⟩
  | none => exact Unreadable.char hc h

theorem hexValue?_lt {b : UInt8} {n : Nat} (h : hexValue? b = some n) : n < 16 := by
  simp only [hexValue?, Bool.and_eq_true, decide_eq_true_eq, UInt8.le_iff_toNat_le,
    UInt8.reduceToNat] at h
  split at h
  · cases h
    omega
  · split at h
    · cases h
      omega
    · split at h
      · cases h
        omega
      · cases h

theorem hexWord?_lt {a b c d : UInt8} {code : Nat} (h : hexWord? a b c d = some code) :
    code < 0x10000 := by
  simp only [hexWord?, Option.bind_eq_bind, Option.bind_eq_some_iff] at h
  obtain ⟨w, hw, x, hx, y, hy, z, hz, hcode⟩ := h
  cases hcode
  have := hexValue?_lt hw
  have := hexValue?_lt hx
  have := hexValue?_lt hy
  have := hexValue?_lt hz
  omega

/-- A high half at the end of what is known waits for what follows, so that the induction settles the
content behind a high half along with the content itself. -/
theorem standsFor_chars? {units : List Nat} {content : List UInt8} (h : ContentOf units content) :
    StandsFor (chars? units) content ∧ ∀ {a b c d : UInt8} {high : Nat}, hexWord? a b c d = some high →
      0xD800 ≤ high → high ≤ 0xDBFF →
      StandsFor (chars? (high :: units)) (0x5C :: 0x75 :: a :: b :: c :: d :: content) := by
  have not_scalar : ∀ {high : Nat}, 0xD800 ≤ high → high ≤ 0xDBFF → ¬ IsScalar high := by
    intro high h1 h2
    simp only [IsScalar]
    omega
  induction h with
  | nil =>
    refine ⟨rfl, fun hword h1 h2 => ?_⟩
    rw [chars?_half (not_scalar h1 h2) (by simp)]
    refine unreadable_high hword h1 h2 fun rest p => ?_
    obtain ⟨e, he⟩ := pairByte_ne (show (0x22 : UInt8) ≠ 0x5C by decide) rest p
    exact ⟨e, bind_of_error he⟩
  | @char ch units content hc hquote hslash _ ih =>
    rw [chars?_codeUnits_append]
    refine ⟨ih.1.char (.itself hc hquote hslash), fun hword h1 h2 => ?_⟩
    rw [chars?_half (not_scalar h1 h2) fun low hlow => not_isPair_head_codeUnits hlow]
    refine unreadable_high hword h1 h2 fun rest p => ?_
    obtain ⟨first, tail, hcons⟩ := List.exists_cons_of_ne_nil (Utf8.encodeChar_ne_nil ch)
    have hliteral := literal_of_mem_encodeChar hc hquote hslash first (by simp [hcons])
    rw [hcons]
    obtain ⟨e, he⟩ := pairByte_ne hliteral.2.1 (tail ++ (content ++ 0x22 :: rest)) p
    simp only [List.cons_append, List.append_assoc]
    exact ⟨e, bind_of_error he⟩
  | @short b byte units content hb _ ih =>
    have hbyte : byte.toNat < 0xD800 := Nat.lt_of_lt_of_le byte.toNat_lt (by decide)
    have hnext : ∀ high, ∀ low ∈ (byte.toNat :: units).head?, ¬ IsPair high low := by
      intro high low hlow
      obtain rfl : byte.toNat = low := by simpa using hlow
      simp only [IsPair]
      omega
    rw [chars?_scalar (.inl hbyte)]
    refine ⟨ih.1.char (.short hb), fun hword h1 h2 => ?_⟩
    rw [chars?_half (not_scalar h1 h2) (hnext _)]
    refine unreadable_high hword h1 h2 fun rest p => ?_
    obtain ⟨e, he⟩ := pairByte_ne (encodeChar_plainEscape? hb).2 (content ++ 0x22 :: rest) _
    refine ⟨e, ?_⟩
    simp only [List.cons_append]
    rw [lowHalf, bind_of_ok (pairByte_cons _ _ p)]
    exact bind_of_error he
  | @unit _ _ _ _ code units content hword _ ih =>
    have hcode := hexWord?_lt hword
    by_cases hlow : 0xDC00 ≤ code ∧ code ≤ 0xDFFF
    · have hhalf : ¬ IsScalar code := by
        simp only [IsScalar]
        omega
      have hnext : ∀ low ∈ units.head?, ¬ IsPair code low := by
        intro low _
        simp only [IsPair]
        omega
      rw [chars?_half hhalf hnext]
      refine ⟨unreadable_low hword hlow.1 hlow.2 content, fun hhigh h1 h2 => ?_⟩
      rw [chars?_pair ⟨⟨h1, h2⟩, hlow⟩]
      exact ih.1.char (.pair hhigh hword h1 h2 hlow.1 hlow.2)
    · have hnext : ∀ high, ∀ low ∈ (code :: units).head?, ¬ IsPair high low := by
        intro high low hmem hpair
        obtain rfl : code = low := by simpa using hmem
        exact hlow hpair.2
      refine ⟨?_, fun hhigh h1 h2 => ?_⟩
      · by_cases hsurrogate : 0xD800 ≤ code ∧ code ≤ 0xDFFF
        · exact ih.2 hword hsurrogate.1 (by omega)
        · have hscalar : IsScalar code := by
            simp only [IsScalar]
            omega
          rw [chars?_scalar hscalar]
          exact ih.1.char (.unit hword hsurrogate)
      · rw [chars?_half (not_scalar h1 h2) (hnext _)]
        refine unreadable_high hhigh h1 h2 fun rest p => ?_
        simp only [List.cons_append]
        rw [lowHalf, bind_of_ok (pairByte_cons _ _ p), bind_of_ok (pairByte_cons _ _ _),
          bind_of_ok (hexUnit_word hword _ _),
          if_neg (by simp only [Bool.and_eq_true, decide_eq_true_eq]; omega)]
        exact ⟨_, rfl⟩

/-- The content stands for characters, or it cannot be read. -/
def Settled (content : List UInt8) : Prop := (∃ cs, CharsWritten cs content) ∨ Unreadable content

theorem settled_of_isContent {content : List UInt8} (h : IsContent content) : Settled content := by
  obtain ⟨units, hunits⟩ := isContent_iff.1 h
  have hstands := (standsFor_chars? hunits).1
  cases hchars : chars? units with
  | some cs =>
    rw [hchars] at hstands
    exact .inl ⟨cs, hstands⟩
  | none =>
    rw [hchars] at hstands
    exact .inr hstands

/-- What does not begin with a quote is no string. -/
theorem text_refuses {b : UInt8} {tail : List UInt8} (hblank : isBlank b = false)
    (hquote : b ≠ 0x22) : Reader.text.Refuses (b :: tail) := by
  rw [Reader.text]
  refine refuses_peekValue hblank fun rest p _ => ?_
  split
  · exact absurd rfl hquote
  · exact fails_wrongKind _ _

theorem decides_text : Reader.text.Decides StringWritten where
  takes _ hs := text_reads _ _ hs
  refuses {text} htext hform := by
    cases htext with
    | null => exact text_refuses (by decide) (by decide)
    | boolTrue => exact text_refuses (by decide) (by decide)
    | boolFalse => exact text_refuses (by decide) (by decide)
    | array _ => exact text_refuses (by decide) (by decide)
    | object _ => exact text_refuses (by decide) (by decide)
    | negative _ => exact text_refuses (by decide) (by decide)
    | number h =>
      obtain ⟨b, tail, rfl, hdigit⟩ := h.exists_cons
      refine text_refuses (isBlank_eq_false_of_isDigit hdigit) ?_
      rintro rfl
      exact absurd hdigit (by decide)
    | string h =>
      obtain ⟨content, hcontent, rfl⟩ := h
      have hbad : Unreadable content := by
        rcases settled_of_isContent hcontent with ⟨cs, hcs⟩ | hbad
        · refine absurd ⟨content, ?_, rfl⟩ (hform (String.ofList cs))
          rwa [String.toList_ofList]
        · exact hbad
      rw [Reader.text]
      refine refuses_peekValue (by decide) fun rest p _ => ?_
      obtain ⟨e, he⟩ := hbad ((content ++ 0x22 :: rest).length + 1) rest (p.after 0x22)
      refine ⟨e, ?_⟩
      change (advance >>= fun _ => stringBody) _ = _
      rw [List.append_assoc, List.singleton_append, bind_of_ok (advance_cons _ _ p), stringBody,
        bind_of_ok (remaining_eq _ _), bind_of_error he]

end Reader

end StatQuery.Json
