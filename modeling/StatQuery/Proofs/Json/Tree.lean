import StatQuery.Proofs.Json.Spelled
import StatQuery.Proofs.Json.Units

/-!
# Trees of JSON texts

A `Tree` is what a JSON text says up to blanks and escapes: the members of an object stand in their
order, strings are code units, and a number keeps its fraction and its exponent as they are written.
Every JSON text spells a tree (`isText_iff`, `isObject_iff`), whether or not a reader makes anything of
it.

Trees that are `Reordered` differ in the order of members, at any depth. What holds of every part of
one of them, whatever the order, holds of every part of the other (`Reordered.within`).
-/

namespace StatQuery.Json

open Reader

/-- A JSON text without its blanks and escapes. -/
inductive Tree where
  | null
  | boolean (b : Bool)
  /-- A number by its sign, its whole part, and the text of its fraction and exponent. -/
  | number (negative : Bool) (whole : Nat) (tail : List UInt8)
  | string (units : List Nat)
  | array (items : List Tree)
  | object (members : List (List Nat × Tree))

/-- The minus sign of a negative number. -/
def signText (negative : Bool) : List UInt8 := if negative then [0x2D] else []

/-- The text is the fraction and the exponent of a number, so far as it has them. -/
def IsTail (text : List UInt8) : Prop :=
  ∃ fraction exponent, IsFraction fraction ∧ IsExponent exponent ∧ text = fraction ++ exponent

namespace Tree

/-- The tree is that of `null`. -/
def isNull : Tree → Bool
  | null => true
  | _ => false

mutual

/-- The text is one of those of the tree, without blanks around it. -/
def Spelled : Tree → List UInt8 → Prop
  | null, text => text = nullText
  | boolean true, text => text = [0x74, 0x72, 0x75, 0x65]
  | boolean false, text => text = [0x66, 0x61, 0x6C, 0x73, 0x65]
  | number negative whole tail, text =>
    IsTail tail ∧ text = signText negative ++ (decimal whole ++ tail)
  | string units, text => UnitsWritten units text
  | array items, text => ∃ body, ItemsSpelled items true body ∧ text = 0x5B :: (body ++ [0x5D])
  | object members, text => ∃ body, MembersSpelled members true body ∧ text = 0x7B :: (body ++ [0x7D])

/-- The text lists the items, up to the closing bracket; `first` tells that no item precedes it. -/
def ItemsSpelled : List Tree → (first : Bool) → List UInt8 → Prop
  | [], _, body => Blanks body
  | item :: rest, first, body => ∃ separator text more, Separates first separator ∧
      item.Spelled text ∧ ItemsSpelled rest false more ∧ body = separator ++ (text ++ more)

/-- The text lists the members, up to the closing brace; `first` tells that no member precedes it. -/
def MembersSpelled : List (List Nat × Tree) → (first : Bool) → List UInt8 → Prop
  | [], _, body => Blanks body
  | (name, tree) :: rest, first, body => ∃ separator nameText before behind text more,
      Separates first separator ∧ UnitsWritten name nameText ∧ Blanks before ∧ Blanks behind ∧
      tree.Spelled text ∧ MembersSpelled rest false more ∧
      body = separator ++ (nameText ++ (before ++ (0x3A :: (behind ++ (text ++ more)))))

end

/-- The text is one of those of the tree, with any blanks around it. -/
def SpelledIn (tree : Tree) (text : List UInt8) : Prop :=
  ∃ before inner behind, Blanks before ∧ Blanks behind ∧ tree.Spelled inner ∧
    text = before ++ (inner ++ behind)

/-! ### Every JSON text has a tree -/

mutual

theorem exists_spelled : ∀ {text : List UInt8}, IsText text → ∃ tree : Tree, tree.Spelled text
  | _, .null => ⟨null, rfl⟩
  | _, .boolTrue => ⟨boolean true, rfl⟩
  | _, .boolFalse => ⟨boolean false, rfl⟩
  | _, .number (.of whole hfraction hexponent) =>
    ⟨number false whole _, ⟨_, _, hfraction, hexponent, rfl⟩, rfl⟩
  | _, .negative (.of whole hfraction hexponent) =>
    ⟨number true whole _, ⟨_, _, hfraction, hexponent, rfl⟩, rfl⟩
  | _, .string h =>
    have ⟨units, hunits⟩ := isString_iff.1 h
    ⟨string units, hunits⟩
  | _, .array h =>
    have ⟨items, hitems⟩ := exists_itemsSpelled h
    ⟨array items, _, hitems, rfl⟩
  | _, .object h =>
    have ⟨members, hmembers⟩ := exists_membersSpelled h
    ⟨object members, _, hmembers, rfl⟩

theorem exists_itemsSpelled : ∀ {first : Bool} {body : List UInt8}, IsItems first body →
    ∃ items, ItemsSpelled items first body
  | _, _, .nil h => ⟨[], h⟩
  | _, _, .cons hseparator htext hmore =>
    have ⟨item, hitem⟩ := exists_spelled htext
    have ⟨items, hitems⟩ := exists_itemsSpelled hmore
    ⟨item :: items, _, _, _, hseparator, hitem, hitems, rfl⟩

theorem exists_membersSpelled : ∀ {first : Bool} {body : List UInt8}, IsMembers first body →
    ∃ members, MembersSpelled members first body
  | _, _, .nil h => ⟨[], h⟩
  | _, _, .cons hseparator hname hbefore hbehind htext hmore =>
    have ⟨name, hunits⟩ := isString_iff.1 hname
    have ⟨tree, htree⟩ := exists_spelled htext
    have ⟨members, hmembers⟩ := exists_membersSpelled hmore
    ⟨(name, tree) :: members, _, _, _, _, _, _, hseparator, hunits, hbefore, hbehind, htree, hmembers,
      rfl⟩

end

mutual

theorem Spelled.isText : (tree : Tree) → {text : List UInt8} → tree.Spelled text → IsText text
  | null, _, h => h ▸ .null
  | boolean true, _, h => h ▸ .boolTrue
  | boolean false, _, h => h ▸ .boolFalse
  | number negative whole tail, _, h => by
    obtain ⟨⟨fraction, exponent, hfraction, hexponent, rfl⟩, rfl⟩ := h
    have hmagnitude := IsMagnitude.of whole hfraction hexponent
    cases negative with
    | false => exact .number hmagnitude
    | true => exact .negative hmagnitude
  | string units, _, h => .string (isString_iff.2 ⟨units, h⟩)
  | array items, _, h => by
    obtain ⟨body, hbody, rfl⟩ := h
    exact .array (ItemsSpelled.isItems items hbody)
  | object members, _, h => by
    obtain ⟨body, hbody, rfl⟩ := h
    exact .object (MembersSpelled.isMembers members hbody)

theorem ItemsSpelled.isItems : (items : List Tree) → {first : Bool} → {body : List UInt8} →
    ItemsSpelled items first body → IsItems first body
  | [], _, _, h => .nil h
  | item :: rest, _, _, h => by
    obtain ⟨separator, text, more, hseparator, htext, hmore, rfl⟩ := h
    exact .cons hseparator (Spelled.isText item htext) (ItemsSpelled.isItems rest hmore)

theorem MembersSpelled.isMembers : (members : List (List Nat × Tree)) → {first : Bool} →
    {body : List UInt8} → MembersSpelled members first body → IsMembers first body
  | [], _, _, h => .nil h
  | (name, tree) :: rest, _, _, h => by
    obtain ⟨separator, nameText, before, behind, text, more, hseparator, hname, hbefore, hbehind, htext,
      hmore, rfl⟩ := h
    exact .cons hseparator (isString_iff.2 ⟨name, hname⟩) hbefore hbehind (Spelled.isText tree htext)
      (MembersSpelled.isMembers rest hmore)

end

/-- The JSON texts are those of trees. -/
theorem isText_iff {text : List UInt8} : IsText text ↔ ∃ tree : Tree, tree.Spelled text := by
  constructor
  · exact exists_spelled
  · rintro ⟨tree, h⟩
    exact Spelled.isText tree h

/-- The JSON object texts are those of the trees of objects. -/
theorem isObject_iff {text : List UInt8} : IsObject text ↔ ∃ members, (object members).SpelledIn text := by
  constructor
  · rintro ⟨before, body, behind, hbefore, hbehind, hbody, htext⟩
    obtain ⟨members, hmembers⟩ := exists_membersSpelled hbody
    exact ⟨members, before, _, behind, hbefore, hbehind, ⟨body, hmembers, rfl⟩, htext⟩
  · rintro ⟨members, before, inner, behind, hbefore, hbehind, ⟨body, hbody, hinner⟩, htext⟩
    refine ⟨before, body, behind, hbefore, hbehind, MembersSpelled.isMembers members hbody, ?_⟩
    rw [htext, hinner]

/-! ### Parts of trees -/

/-- The first tree is the second one or stands somewhere in it. -/
inductive Within : Tree → Tree → Prop
  | self (tree : Tree) : Within tree tree
  | item {part item : Tree} {items : List Tree} (hmem : item ∈ items) (h : Within part item) :
      Within part (array items)
  | member {part : Tree} {member : List Nat × Tree} {members : List (List Nat × Tree)}
      (hmem : member ∈ members) (h : Within part member.2) : Within part (object members)

/-- No object in the tree has two members of one name. -/
def Distinct (tree : Tree) : Prop :=
  ∀ members, (object members).Within tree → (members.map (·.1)).Nodup

/-- The integer that a number stands for, if it has neither fraction nor exponent, is no negative zero
and fits 64 bits. -/
def integer? (negative : Bool) (whole : Nat) (tail : List UInt8) : Option Int :=
  if tail ≠ [] then none
  else if negative then
    if 0 < whole ∧ whole ≤ twoTo 63 then some (-whole) else none
  else if whole < twoTo 64 then some whole
  else none

/-- Every number in the tree is a plain integer. -/
def Plain (tree : Tree) : Prop :=
  ∀ negative whole tail, (number negative whole tail).Within tree →
    (integer? negative whole tail).isSome = true

mutual

/-- The number of brackets around the innermost part. -/
def depth : Tree → Nat
  | array items => depthItems items + 1
  | object members => depthMembers members + 1
  | _ => 0

/-- The greatest depth of some items. -/
def depthItems : List Tree → Nat
  | [] => 0
  | item :: rest => max item.depth (depthItems rest)

/-- The greatest depth of some members' trees. -/
def depthMembers : List (List Nat × Tree) → Nat
  | [] => 0
  | (_, tree) :: rest => max tree.depth (depthMembers rest)

end

theorem Distinct.item {items : List Tree} (h : (array items).Distinct) {item : Tree}
    (hmem : item ∈ items) : item.Distinct :=
  fun members hwithin => h members (.item hmem hwithin)

theorem Distinct.member {members : List (List Nat × Tree)} (h : (object members).Distinct)
    {member : List Nat × Tree} (hmem : member ∈ members) : member.2.Distinct :=
  fun members hwithin => h members (.member hmem hwithin)

theorem Plain.item {items : List Tree} (h : (array items).Plain) {item : Tree} (hmem : item ∈ items) :
    item.Plain :=
  fun negative whole tail hwithin => h negative whole tail (.item hmem hwithin)

theorem Plain.member {members : List (List Nat × Tree)} (h : (object members).Plain)
    {member : List Nat × Tree} (hmem : member ∈ members) : member.2.Plain :=
  fun negative whole tail hwithin => h negative whole tail (.member hmem hwithin)

theorem isNull_eq_false_of_ne {tree : Tree} (h : tree ≠ null) : tree.isNull = false := by
  cases tree with
  | null => exact absurd rfl h
  | _ => rfl

theorem distinct_null : null.Distinct := by
  intro members hwithin
  cases hwithin

theorem plain_null : null.Plain := by
  intro negative whole tail hwithin
  cases hwithin

theorem depthItems_le_iff {items : List Tree} {n : Nat} :
    depthItems items ≤ n ↔ ∀ item ∈ items, item.depth ≤ n := by
  induction items with
  | nil => simp [depthItems]
  | cons item rest ih => rw [depthItems, Nat.max_le, ih, List.forall_mem_cons]

theorem depthMembers_le_iff {members : List (List Nat × Tree)} {n : Nat} :
    depthMembers members ≤ n ↔ ∀ member ∈ members, member.2.depth ≤ n := by
  induction members with
  | nil => simp [depthMembers]
  | cons member rest ih => rw [depthMembers, Nat.max_le, ih, List.forall_mem_cons]

theorem depth_array_le_iff {items : List Tree} {n : Nat} :
    (array items).depth ≤ n ↔ 0 < n ∧ ∀ item ∈ items, item.depth ≤ n - 1 := by
  rw [depth, ← depthItems_le_iff]
  omega

theorem depth_object_le_iff {members : List (List Nat × Tree)} {n : Nat} :
    (object members).depth ≤ n ↔ 0 < n ∧ ∀ member ∈ members, member.2.depth ≤ n - 1 := by
  rw [depth, ← depthMembers_le_iff]
  omega

/-! ### Members in another order -/

/-- The trees differ in the order of the members of their objects. -/
inductive Reordered : Tree → Tree → Prop
  | refl (tree : Tree) : Reordered tree tree
  | perm {members members' : List (List Nat × Tree)} (h : members.Perm members') :
      Reordered (object members) (object members')
  | item {before behind : List Tree} {item item' : Tree} (h : Reordered item item') :
      Reordered (array (before ++ item :: behind)) (array (before ++ item' :: behind))
  | member {before behind : List (List Nat × Tree)} {name : List Nat} {tree tree' : Tree}
      (h : Reordered tree tree') :
      Reordered (object (before ++ (name, tree) :: behind)) (object (before ++ (name, tree') :: behind))
  | trans {tree tree' tree'' : Tree} (h : Reordered tree tree') (h' : Reordered tree' tree'') :
      Reordered tree tree''

variable {tree tree' : Tree}

theorem Reordered.symm (h : Reordered tree tree') : Reordered tree' tree := by
  induction h with
  | refl tree => exact .refl tree
  | perm h => exact .perm h.symm
  | item _ ih => exact .item ih
  | member _ ih => exact .member ih
  | trans _ _ ih ih' => exact ih'.trans ih

/-- A tree without brackets is left as it is, and an object keeps its names. -/
theorem Reordered.shape (h : Reordered tree tree') :
    tree = tree' ∨ (∃ items items', tree = array items ∧ tree' = array items') ∨
      ∃ members members', tree = object members ∧ tree' = object members' ∧
        (members.map (·.1)).Perm (members'.map (·.1)) := by
  induction h with
  | refl tree => exact .inl rfl
  | perm h => exact .inr (.inr ⟨_, _, rfl, rfl, h.map _⟩)
  | item _ _ => exact .inr (.inl ⟨_, _, rfl, rfl⟩)
  | member _ _ => exact .inr (.inr ⟨_, _, rfl, rfl, by simp⟩)
  | trans _ _ ih ih' =>
    rcases ih with rfl | ⟨items, items', rfl, rfl⟩ | ⟨members, members', rfl, rfl, hnames⟩
    · exact ih'
    · rcases ih' with rfl | ⟨_, items'', -, rfl⟩ | ⟨_, _, hcontra, -⟩
      · exact .inr (.inl ⟨_, _, rfl, rfl⟩)
      · exact .inr (.inl ⟨_, _, rfl, rfl⟩)
      · cases hcontra
    · rcases ih' with rfl | ⟨_, _, hcontra, -⟩ | ⟨_, members'', heq, rfl, hnames'⟩
      · exact .inr (.inr ⟨_, _, rfl, rfl, hnames⟩)
      · cases hcontra
      · cases heq
        exact .inr (.inr ⟨_, _, rfl, rfl, hnames.trans hnames'⟩)

/-- Each part of the one tree is a part of the other, in another order. -/
theorem Reordered.within (h : Reordered tree tree') {part' : Tree} (hpart : part'.Within tree') :
    ∃ part : Tree, part.Within tree ∧ Reordered part part' := by
  induction h generalizing part' with
  | refl tree => exact ⟨part', hpart, .refl part'⟩
  | perm h =>
    cases hpart with
    | self => exact ⟨_, .self _, .perm h⟩
    | member hmem hwithin => exact ⟨part', .member (h.mem_iff.2 hmem) hwithin, .refl part'⟩
  | item h ih =>
    cases hpart with
    | self => exact ⟨_, .self _, .item h⟩
    | item hmem hwithin =>
      rcases List.mem_append.1 hmem with hmem | hmem
      · exact ⟨part', .item (List.mem_append_left _ hmem) hwithin, .refl part'⟩
      · rcases List.mem_cons.1 hmem with rfl | hmem
        · obtain ⟨part, hpart, hreordered⟩ := ih hwithin
          exact ⟨part, .item (by simp) hpart, hreordered⟩
        · exact ⟨part', .item (by simp [hmem]) hwithin, .refl part'⟩
  | member h ih =>
    cases hpart with
    | self => exact ⟨_, .self _, .member h⟩
    | member hmem hwithin =>
      rcases List.mem_append.1 hmem with hmem | hmem
      · exact ⟨part', .member (List.mem_append_left _ hmem) hwithin, .refl part'⟩
      · rcases List.mem_cons.1 hmem with rfl | hmem
        · obtain ⟨part, hpart, hreordered⟩ := ih hwithin
          exact ⟨part, .member (List.mem_append_right _ List.mem_cons_self) hpart, hreordered⟩
        · exact ⟨part', .member (by simp [hmem]) hwithin, .refl part'⟩
  | trans _ _ ih ih' =>
    obtain ⟨part, hpart, hreordered⟩ := ih' hpart
    obtain ⟨first, hfirst, hbefore⟩ := ih hpart
    exact ⟨first, hfirst, hbefore.trans hreordered⟩

theorem Reordered.distinct (h : Reordered tree tree') (hdistinct : tree.Distinct) : tree'.Distinct := by
  intro members hwithin
  obtain ⟨part, hpart, hreordered⟩ := h.within hwithin
  rcases hreordered.shape with rfl | ⟨_, _, -, hcontra⟩ | ⟨before, _, rfl, heq, hnames⟩
  · exact hdistinct members hpart
  · cases hcontra
  · cases heq
    exact hnames.nodup_iff.1 (hdistinct before hpart)

theorem Reordered.plain (h : Reordered tree tree') (hplain : tree.Plain) : tree'.Plain := by
  intro negative whole tail hwithin
  obtain ⟨part, hpart, hreordered⟩ := h.within hwithin
  rcases hreordered.shape with rfl | ⟨_, _, -, hcontra⟩ | ⟨_, _, -, hcontra, -⟩
  · exact hplain negative whole tail hpart
  · cases hcontra
  · cases hcontra

theorem Reordered.depth_le (h : Reordered tree tree') {n : Nat} (hdepth : tree.depth ≤ n) :
    tree'.depth ≤ n := by
  induction h generalizing n with
  | refl tree => exact hdepth
  | perm h =>
    obtain ⟨hpos, hmembers⟩ := depth_object_le_iff.1 hdepth
    exact depth_object_le_iff.2 ⟨hpos, fun member hmem => hmembers member (h.mem_iff.2 hmem)⟩
  | item _ ih =>
    rw [depth_array_le_iff, List.forall_mem_append, List.forall_mem_cons] at hdepth ⊢
    obtain ⟨hpos, hbefore, hitem, hbehind⟩ := hdepth
    exact ⟨hpos, hbefore, ih hitem, hbehind⟩
  | member _ ih =>
    rw [depth_object_le_iff, List.forall_mem_append, List.forall_mem_cons] at hdepth ⊢
    obtain ⟨hpos, hbefore, hmember, hbehind⟩ := hdepth
    exact ⟨hpos, hbefore, ih hmember, hbehind⟩
  | trans _ _ ih ih' => exact ih' (ih hdepth)

end Tree

end StatQuery.Json
