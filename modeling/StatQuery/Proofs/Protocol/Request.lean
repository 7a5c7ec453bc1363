import StatQuery.Proofs.Json.Record
import StatQuery.Proofs.Json.Writer
import StatQuery.Protocol.Request

/-!
# Requests on the wire

A request is read back from its own frame, but for two things that the reader settles: a version other
than the current one is refused, and an action is told by its spelling alone (`decode_encode`).
-/

namespace StatQuery

namespace Action

/-- The spellings that have an action of their own. -/
def spellings : List String := ["all_services", "info", "cache_stats", "config"]

/-- An action is told by its spelling unless it is unknown under a known spelling. -/
theorem ofName_name_iff (action : Action) :
    ofName action.name = action ↔ ∀ s ∈ spellings, action ≠ .other s := by
  cases action with
  | other s =>
    have hother : ofName s = .other s ↔ s ∉ spellings := by
      unfold ofName spellings
      by_cases h1 : s = "all_services"
      · simp [h1]
      · by_cases h2 : s = "info"
        · simp [h2]
        · by_cases h3 : s = "cache_stats"
          · simp [h3]
          · by_cases h4 : s = "config" <;> simp [h1, h2, h3, h4]
    rw [name, hother]
    constructor
    · intro hs t ht heq
      cases heq
      exact hs ht
    · intro h hs
      exact h s hs rfl
  | _ => simp [name, ofName]

end Action

namespace Request

open Json Json.Reader

theorem exactMembers_members (request : Request) : ExactMembers request.members := by
  have hlt : request.version.toNat < twoTo 64 := by
    have := request.version.toNat_lt
    rw [twoTo_64]
    omega
  have hversion : Fits (request.version.toNat : Int) := canonical_natural hlt
  unfold members
  split
  · exact ⟨hversion, trivial, trivial⟩
  · exact ⟨hversion, trivial, trivial, trivial⟩

theorem toUInt64_toNat (version : UInt32) : version.toNat.toUInt64 = version.toUInt64 := by
  apply UInt64.toNat_inj.1
  simp

/-- The members of a request fill a draft with all that it has. -/
theorem folds_members (request : Request) :
    Folds wireRecord.readMember wireRecord.draft request.members
      ⟨some (some request.version.toUInt64), some (some request.action.name),
        request.handle.map some⟩ := by
  have hversion : (optional unsigned).Reads (natural request.version.toNat)
      (some request.version.toUInt64) := by
    rw [← toUInt64_toNat]
    exact optional_reads (unsigned_reads _) nofun
  have haction : (optional Reader.text).Reads (string request.action.name)
      (some request.action.name) := optional_reads (text_reads _) nofun
  refine .cons (Record.readMember_reads (by rfl) (by rfl) (hversion.bind_pure _)) ?_
  refine .cons (Record.readMember_reads (by rfl) (by rfl) (haction.bind_pure _)) ?_
  cases request.handle with
  | none => exact .nil _
  | some handle =>
    have hhandle : (optional Reader.text).Reads (string handle) (some handle) :=
      optional_reads (text_reads _) nofun
    exact .cons (Record.readMember_reads (by rfl) (by rfl) (hhandle.bind_pure _)) (.nil _)

/-- What a written request says on the wire. -/
theorem run_encode (request : Request) : wireRecord.read.run request.encode =
    .ok ⟨some request.version.toUInt64, some request.action.name, request.handle⟩ := by
  have hread := Record.read_written request.folds_members (by rfl)
  have hwritten : (object request.members).WrittenAs request.encode := by
    rw [encode, text, compact, Utf8.encode, String.toList_ofList]
    exact compactChars_written _ request.exactMembers_members
  have hrun := run_of_takes (hread _ hwritten) Blanks.nil Blanks.nil
  rw [List.nil_append, List.append_nil] at hrun
  rw [hrun]
  cases request.handle <;> rfl

/-- A request of the current version is read back from its frame, its action told by its spelling. -/
theorem decode_encode_of_eq {request : Request} (h : request.version = protocolVersion) :
    decode request.encode =
      .ok ⟨protocolVersion, Action.ofName request.action.name, request.handle⟩ := by
  rw [decode, run_encode, h]
  rfl

/-- A request of another version is refused for its version. -/
theorem decode_encode_of_ne {request : Request} (h : request.version ≠ protocolVersion) :
    decode request.encode =
      .error (.unsupportedVersion request.version.toUInt64 protocolVersion) := by
  have hversion : request.version.toUInt64 ≠ protocolVersion.toUInt64 := fun heq =>
    h (UInt32.toUInt64_inj.1 heq)
  rw [decode, run_encode]
  exact if_pos hversion

theorem decode_encode_eq_self_iff (request : Request) :
    decode request.encode = .ok request ↔
      request.version = protocolVersion ∧ ∀ s ∈ Action.spellings, request.action ≠ .other s := by
  rw [← Action.ofName_name_iff]
  by_cases hversion : request.version = protocolVersion
  · rw [decode_encode_of_eq hversion]
    obtain ⟨version, action, handle⟩ := request
    simp only at hversion
    simp [hversion]
  · rw [decode_encode_of_ne hversion]
    simp [hversion]

/-- A frame tells the version, the spelling of the action and the handle, and nothing else. -/
theorem encode_eq_iff {request other : Request} :
    other.encode = request.encode ↔ other.version = request.version ∧
      other.action.name = request.action.name ∧ other.handle = request.handle := by
  constructor
  · intro h
    have hwire := other.run_encode
    rw [h, request.run_encode] at hwire
    have heq := Wire.mk.inj (Except.ok.inj hwire)
    have hversion := UInt32.toUInt64_inj.1 (Option.some.inj heq.1)
    exact ⟨hversion.symm, (Option.some.inj heq.2.1).symm, heq.2.2.symm⟩
  · rintro ⟨hversion, haction, hhandle⟩
    rw [encode, encode, text, text, members, members, hversion, haction, hhandle]

/-- Reading undoes writing: the version is checked, the action is told by its spelling, and the handle
comes back as it was, so that no handle is not the empty one. -/
theorem decode_encode (request : Request) :
    (request.version = protocolVersion → decode request.encode =
      .ok ⟨protocolVersion, .ofName request.action.name, request.handle⟩) ∧
    (request.version ≠ protocolVersion → decode request.encode =
      .error (.unsupportedVersion request.version.toUInt64 protocolVersion)) ∧
    (decode request.encode = .ok request ↔ request.version = protocolVersion ∧
      ∀ s ∈ Action.spellings, request.action ≠ .other s) ∧
    (request.version = protocolVersion →
      decode { request with handle := none }.encode ≠
        decode { request with handle := some "" }.encode) ∧
    ∀ other : Request, other.encode = request.encode ↔ other.version = request.version ∧
      other.action.name = request.action.name ∧ other.handle = request.handle := by
  refine ⟨decode_encode_of_eq, decode_encode_of_ne, request.decode_encode_eq_self_iff, ?_,
    fun other => encode_eq_iff⟩
  intro hversion heq
  have hnone : decode { request with handle := none }.encode =
      .ok ⟨protocolVersion, .ofName request.action.name, none⟩ := decode_encode_of_eq hversion
  have hempty : decode { request with handle := some "" }.encode =
      .ok ⟨protocolVersion, .ofName request.action.name, some ""⟩ := decode_encode_of_eq hversion
  rw [hnone, hempty] at heq
  cases heq

/-- An unknown action under a known spelling is read as the known one, with its quoted handle. -/
theorem decode_encode_known_spelling :
    decode (⟨1, .other "info", some "\"\\\n😀"⟩ : Request).encode =
      .ok ⟨1, .info, some "\"\\\n😀"⟩ ∧
    decode (⟨1, .other "info", some "\"\\\n😀"⟩ : Request).encode ≠
      .ok ⟨1, .other "info", some "\"\\\n😀"⟩ := by
  obtain ⟨hread, -, hself, -⟩ := decode_encode ⟨1, .other "info", some "\"\\\n😀"⟩
  refine ⟨hread rfl, fun heq => ?_⟩
  exact (hself.1 heq).2 "info" (by decide) rfl

end Request

end StatQuery
