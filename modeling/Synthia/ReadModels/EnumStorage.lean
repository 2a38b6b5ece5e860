import Synthia.Domain.Vocabulary
import Synthia.Lib.FirstWrite
import Synthia.Lib.Framing
import Synthia.Lib.Text

/-!
# How the read side spells what is stored

`Synthia.Persistence.Conventions`. A column is named, and an enumeration's member is stored,
in a spelling made from the CLR name. A stored text is read by looking it up among the
spellings of the members, `Unknown` not among them, and a text that is no member's spelling
is an exception.

The names are ASCII: letters and digits, a capital first.
-/

namespace Synthia

open Text

namespace EnumStorage

/-! ## Names -/

/-- `char.IsUpper`, of ASCII. -/
def isUpper (c : CodePoint) : Bool := 0x41 ≤ c.val && c.val ≤ 0x5A

def isLower (c : CodePoint) : Bool := 0x61 ≤ c.val && c.val ≤ 0x7A

def isDigit (c : CodePoint) : Bool := 0x30 ≤ c.val && c.val ≤ 0x39

/-- `char.ToLowerInvariant`, of ASCII. -/
def toLowerInvariant (c : CodePoint) : CodePoint :=
  if isUpper c then Fin.ofNat 0x110000 (c.val + 0x20) else c

/-- `char.ToUpperInvariant`, of ASCII. -/
def toUpperInvariant (c : CodePoint) : CodePoint :=
  if isLower c then Fin.ofNat 0x110000 (c.val - 0x20) else c

/-- What a name goes on with. -/
def isNamePart (c : CodePoint) : Bool := isUpper c || isLower c || isDigit c

def isPascal (name : List CodePoint) : Bool := name.head?.any isUpper && name.all isNamePart

/-- What stands for one character past the first. -/
def underscored (c : CodePoint) : List CodePoint :=
  if isUpper c then [0x5F, toLowerInvariant c] else [toLowerInvariant c]

/-- `SnakeCaseNaming.ToSnakeCase`. -/
def toSnakeCase : List CodePoint → List CodePoint
  | [] => []
  | c :: rest => toLowerInvariant c :: rest.flatMap underscored

def toLowerSnakeCase (name : List CodePoint) : List CodePoint := toSnakeCase name

def toUpperSnakeCase (name : List CodePoint) : List CodePoint :=
  (toSnakeCase name).map toUpperInvariant

/-! ## Enumerations -/

/-- An enumeration, its members in the order of their values. -/
structure ClrEnum where
  name : List CodePoint
  members : List (List CodePoint)
  pascal : members.all isPascal = true

/-- `EnumStorage.BuildLookup`. -/
def buildLookup (type : ClrEnum) (render : List CodePoint → List CodePoint) :
    AList fun _ : List CodePoint => List CodePoint :=
  Dict.ofEntries ((type.members.filter fun member => member != ofString "Unknown").map
    fun member => (render member, member))

/-- The message of `EnumStorage.UnknownValue`. -/
def unknownValue (type : ClrEnum) (stored : List CodePoint) : List CodePoint :=
  ofString "The published view returned '" ++ stored ++ ofString "', which is not a known " ++
    type.name ++ ofString (". RagCore has added an enum member without publishing a new " ++
      "view version — see contracts/read-views.md.")

/-- `Parse`, of either converter. -/
def parse (type : ClrEnum) (render : List CodePoint → List CodePoint)
    (stored : List CodePoint) : Except (List CodePoint) (List CodePoint) :=
  match (buildLookup type render).lookup stored with
  | some member => .ok member
  | none => .error (unknownValue type stored)

/-! ## Spellings -/

theorem val_toLower {c : CodePoint} (h : isUpper c = true) :
    (toLowerInvariant c).val = c.val + 0x20 := by
  rw [toLowerInvariant, if_pos h]
  rw [isUpper, Bool.and_eq_true, decide_eq_true_eq, decide_eq_true_eq] at h
  exact Nat.mod_eq_of_lt (by omega)

theorem toLower_of_not_upper {c : CodePoint} (h : isUpper c = false) :
    toLowerInvariant c = c := by
  rw [toLowerInvariant, h]
  rfl

/-- Spelled out, no character of a name begins as another does. -/
theorem prefixCode_underscored :
    PrefixCode.On (fun c : CodePoint => isNamePart c = true) underscored where
  nonempty c _ := by
    rw [underscored]
    split <;> exact List.cons_ne_nil _ _
  first a b x y ha hb h := by
    have hplain : ∀ c : CodePoint, isNamePart c = true → isUpper c = false →
        c ≠ (0x5F : CodePoint) := by
      rintro c hc hupper rfl
      exact absurd hc (by decide)
    cases hupper : isUpper a with
    | true =>
        cases hother : isUpper b with
        | true =>
            simp only [underscored, hupper, hother, if_true, List.cons_append] at h
            injection h with _ h
            injection h with h
            have hval := congrArg Fin.val h
            rw [val_toLower hupper, val_toLower hother] at hval
            exact Fin.ext (by omega)
        | false =>
            simp only [underscored, hupper, hother, if_true, List.cons_append,
              Bool.false_eq_true, if_false] at h
            injection h with h
            rw [toLower_of_not_upper hother] at h
            exact absurd h.symm (hplain b hb hother)
    | false =>
        cases hother : isUpper b with
        | true =>
            simp only [underscored, hupper, hother, if_true, List.cons_append,
              Bool.false_eq_true, if_false] at h
            injection h with h
            rw [toLower_of_not_upper hupper] at h
            exact absurd h (hplain a ha hupper)
        | false =>
            simp only [underscored, hupper, hother, List.cons_append,
              Bool.false_eq_true, if_false] at h
            injection h with h
            rwa [toLower_of_not_upper hupper, toLower_of_not_upper hother] at h

theorem isUpper_toLower (c : CodePoint) : isUpper (toLowerInvariant c) = false := by
  cases h : isUpper c with
  | true =>
      have hval := val_toLower h
      rw [isUpper, Bool.and_eq_true, decide_eq_true_eq, decide_eq_true_eq] at h
      rw [isUpper, hval, Bool.and_eq_false_iff, decide_eq_false_iff_not,
        decide_eq_false_iff_not]
      omega
  | false => rwa [toLower_of_not_upper h]

/-- Nothing is in capitals once it is spelled. -/
theorem isUpper_toSnakeCase (name : List CodePoint) :
    ∀ c ∈ toSnakeCase name, isUpper c = false := by
  have hpart : ∀ d c : CodePoint, c ∈ underscored d → isUpper c = false := by
    intro d c hc
    rw [underscored] at hc
    split at hc
    · rcases List.mem_cons.mp hc with rfl | hlast
      · decide
      · rw [List.mem_singleton.mp hlast]
        exact isUpper_toLower d
    · rw [List.mem_singleton.mp hc]
      exact isUpper_toLower d
  intro c hc
  cases name with
  | nil => cases hc
  | cons first rest =>
      rcases List.mem_cons.mp hc with rfl | hlater
      · exact isUpper_toLower first
      · obtain ⟨d, -, hd⟩ := List.mem_flatMap.mp hlater
        exact hpart d c hd

/-- Putting what is not in capitals there can be taken back. -/
theorem toLower_toUpper {c : CodePoint} (h : isUpper c = false) :
    toLowerInvariant (toUpperInvariant c) = c := by
  rw [toUpperInvariant]
  split
  · next hlower =>
      rw [isLower, Bool.and_eq_true, decide_eq_true_eq, decide_eq_true_eq] at hlower
      have hval : (Fin.ofNat 0x110000 (c.val - 0x20)).val = c.val - 0x20 :=
        Nat.mod_eq_of_lt (by omega)
      have hupper : isUpper (Fin.ofNat 0x110000 (c.val - 0x20)) = true := by
        rw [isUpper, hval, Bool.and_eq_true, decide_eq_true_eq, decide_eq_true_eq]
        omega
      refine Fin.ext ?_
      rw [val_toLower hupper, hval]
      omega
  · exact toLower_of_not_upper h

/-- Two names are not spelled alike. -/
theorem toLowerSnakeCase_inj {a b : List CodePoint} (ha : isPascal a = true)
    (hb : isPascal b = true) (h : toLowerSnakeCase a = toLowerSnakeCase b) : a = b := by
  rw [isPascal, Bool.and_eq_true, List.all_eq_true] at ha hb
  cases a with
  | nil => cases ha.1
  | cons c rest =>
      cases b with
      | nil => cases hb.1
      | cons d others =>
          change toSnakeCase (c :: rest) = toSnakeCase (d :: others) at h
          rw [toSnakeCase, toSnakeCase] at h
          injection h with hfirst hrest
          have hval := congrArg Fin.val hfirst
          rw [val_toLower ha.1, val_toLower hb.1] at hval
          obtain rfl : c = d := Fin.ext (by omega)
          rw [prefixCode_underscored.flatMap_inj (fun x hx => ha.2 x (List.mem_cons_of_mem c hx))
            (fun x hx => hb.2 x (List.mem_cons_of_mem c hx)) hrest]

theorem toUpperSnakeCase_inj {a b : List CodePoint} (ha : isPascal a = true)
    (hb : isPascal b = true) (h : toUpperSnakeCase a = toUpperSnakeCase b) : a = b := by
  have hback : ∀ name, (toUpperSnakeCase name).map toLowerInvariant = toLowerSnakeCase name := by
    intro name
    rw [toUpperSnakeCase, List.map_map]
    refine (List.map_congr_left fun c hc => ?_).trans (List.map_id _)
    exact toLower_toUpper (isUpper_toSnakeCase name c hc)
  exact toLowerSnakeCase_inj ha hb (by rw [← hback a, ← hback b, h])

/-! ## Reading back -/

/-- The two spellings in use. -/
inductive Spelling where
  | lower
  | upper

def Spelling.render : Spelling → List CodePoint → List CodePoint
  | .lower => toLowerSnakeCase
  | .upper => toUpperSnakeCase

theorem Spelling.render_inj (spelling : Spelling) {a b : List CodePoint}
    (ha : isPascal a = true) (hb : isPascal b = true)
    (h : spelling.render a = spelling.render b) : a = b := by
  cases spelling with
  | lower => exact toLowerSnakeCase_inj ha hb h
  | upper => exact toUpperSnakeCase_inj ha hb h

variable {type : ClrEnum} {spelling : Spelling} {stored member : List CodePoint}

/-- A stored text is read as the member it is the spelling of, and as no other. -/
theorem parse_eq_ok_iff : parse type spelling.render stored = .ok member ↔
    member ∈ type.members ∧ member ≠ ofString "Unknown" ∧ spelling.render member = stored := by
  have hpascal := List.all_eq_true.mp type.pascal
  have hlookup : (buildLookup type spelling.render).lookup stored = some member ↔
      member ∈ type.members ∧ member ≠ ofString "Unknown" ∧
        spelling.render member = stored := by
    rw [buildLookup, Dict.lookup_ofEntries, Option.map_eq_some_iff]
    constructor
    · rintro ⟨entry, hentry, rfl⟩
      obtain ⟨hmem, hkey⟩ := FirstWrite.mem_of_latest hentry
      obtain ⟨own, hown, rfl⟩ := List.mem_map.mp hmem
      obtain ⟨hmember, hknown⟩ := List.mem_filter.mp hown
      exact ⟨hmember, bne_iff_ne.mp hknown, hkey⟩
    · rintro ⟨hmember, hknown, rfl⟩
      have hmem : (spelling.render member, member) ∈
          (type.members.filter fun member => member != ofString "Unknown").map
            fun member => (spelling.render member, member) :=
        List.mem_map.mpr ⟨member, List.mem_filter.mpr ⟨hmember, bne_iff_ne.mpr hknown⟩, rfl⟩
      obtain ⟨last, hlast⟩ := @FirstWrite.latest_isSome _ _ _ Prod.fst _ _ hmem
      refine ⟨last, hlast, ?_⟩
      obtain ⟨hlastMem, hkey⟩ := FirstWrite.mem_of_latest hlast
      obtain ⟨own, hown, rfl⟩ := List.mem_map.mp hlastMem
      exact spelling.render_inj (hpascal own (List.mem_of_mem_filter hown))
        (hpascal member hmember) hkey
  rw [← hlookup, parse]
  cases (buildLookup type spelling.render).lookup stored with
  | none => exact iff_of_false (fun h => nomatch h) fun h => nomatch h
  | some found =>
      constructor
      · intro h
        injection h with h
        rw [h]
      · intro h
        injection h with h
        rw [h]

theorem parse_isOk_iff : (∃ member, parse type spelling.render stored = .ok member) ↔
    stored ∈ (type.members.filter fun member => member != ofString "Unknown").map
      spelling.render := by
  rw [List.mem_map]
  constructor
  · rintro ⟨member, h⟩
    obtain ⟨hmember, hknown, hrender⟩ := parse_eq_ok_iff.mp h
    exact ⟨member, List.mem_filter.mpr ⟨hmember, bne_iff_ne.mpr hknown⟩, hrender⟩
  · rintro ⟨member, hmember, hrender⟩
    obtain ⟨hmember, hknown⟩ := List.mem_filter.mp hmember
    exact ⟨member, parse_eq_ok_iff.mpr ⟨hmember, bne_iff_ne.mp hknown, hrender⟩⟩

/-! ## The mapped properties -/

def namesOf (names : List String) : List (List CodePoint) := names.map ofString

def sessionState : ClrEnum where
  name := ofString "SessionState"
  members := namesOf ["Unknown", "Conversational", "Resolving", "AwaitingUser",
    "AwaitingConsent", "AwaitingApproval", "StaffControlled", "Resolved", "Escalated",
    "ClosedDeclined"]
  pascal := by decide +kernel

def senderKind : ClrEnum where
  name := ofString "SenderKind"
  members := namesOf ["Unknown", "EndUser", "Agent", "Staff"]
  pascal := by decide +kernel

def feedbackSignal : ClrEnum where
  name := ofString "FeedbackSignal"
  members := namesOf ["Unknown", "Positive", "Negative"]
  pascal := by decide +kernel

def workItemState : ClrEnum where
  name := ofString "WorkItemState"
  members := namesOf ["Unknown", "Open", "AwaitingDecision", "Authorized", "Claimed",
    "Executed", "Failed", "Expired", "Cancelled", "Escalated"]
  pascal := by decide +kernel

def approvalState : ClrEnum where
  name := ofString "ApprovalState"
  members := namesOf ["Unknown", "None", "Pending", "Approved", "Rejected", "Expired"]
  pascal := by decide +kernel

def capabilityKind : ClrEnum where
  name := ofString "CapabilityKind"
  members := namesOf ["Unknown", "Read", "Action"]
  pascal := by decide +kernel

def executionTreatment : ClrEnum where
  name := ofString "ExecutionTreatment"
  members := namesOf ["Auto", "EndUserApproval", "StaffApproval", "NotAllowed"]
  pascal := by decide +kernel

def executionMethod : ClrEnum where
  name := ofString "ExecutionMethod"
  members := namesOf ["Unknown", "Workload", "DesktopScript", "None"]
  pascal := by decide +kernel

def verificationOutcome : ClrEnum where
  name := ofString "VerificationOutcome"
  members := namesOf ["Unknown", "ServerConfirmed", "ClientAttested", "Contradicted"]
  pascal := by decide +kernel

def tenantStatus : ClrEnum where
  name := ofString "TenantStatus"
  members := namesOf ["Unknown", "Active", "Suspended", "Offboarded"]
  pascal := by decide +kernel

/-- A property of a read model with a converter, and the texts the decision service has for
what is stored there. -/
structure MappedProperty where
  type : ClrEnum
  spelling : Spelling
  values : List (List CodePoint)

/-- Those of `OnModelCreating`, with the values of `ragcore.domain`'s enumerations. -/
def mappedProperties : List MappedProperty :=
  [⟨sessionState, .lower, namesOf ["conversational", "resolving", "awaiting_user",
      "awaiting_consent", "awaiting_approval", "staff_controlled", "resolved", "escalated",
      "closed_declined"]⟩,
    ⟨senderKind, .lower, namesOf ["end_user", "agent", "staff"]⟩,
    ⟨feedbackSignal, .lower, namesOf ["positive", "negative"]⟩,
    ⟨workItemState, .lower, namesOf (([.open, .awaitingDecision, .authorized, .claimed,
      .executed, .failed, .expired, .cancelled, .escalated] : List WorkItemState).map
        WorkItemState.value)⟩,
    ⟨approvalState, .lower, namesOf (([.none, .pending, .approved, .rejected, .expired] :
      List ApprovalState).map ApprovalState.value)⟩,
    ⟨capabilityKind, .lower, namesOf ["read", "action"]⟩,
    ⟨executionTreatment, .upper, namesOf ["AUTO", "END_USER_APPROVAL", "STAFF_APPROVAL",
      "NOT_ALLOWED"]⟩,
    ⟨executionMethod, .lower, namesOf ["workload", "desktop_script", "none"]⟩,
    ⟨verificationOutcome, .lower, namesOf (([.serverConfirmed, .clientAttested,
      .contradicted] : List VerificationOutcome).map VerificationOutcome.value)⟩,
    ⟨tenantStatus, .lower, namesOf (([.active, .suspended, .offboarded] :
      List TenantStatus).map TenantStatus.value)⟩]

/-- A property's members, spelled, are the values in their order. -/
def MappedProperty.agrees (property : MappedProperty) : Bool :=
  ((property.type.members.filter fun member => member != ofString "Unknown").map
    property.spelling.render) == property.values

theorem mappedProperties_agree : mappedProperties.all MappedProperty.agrees = true := by
  decide +kernel

/-- **Stored and read.** Of any enumeration, in either spelling: a stored text is read as
exactly the member it is the spelling of. Of the properties the read side maps: the texts
that are read, and do not raise, are the values the decision service has for the column. -/
theorem stored_vocabulary_read_back :
    (∀ (type : ClrEnum) (spelling : Spelling) (stored member : List CodePoint),
        parse type spelling.render stored = .ok member ↔
          member ∈ type.members ∧ member ≠ ofString "Unknown" ∧
            spelling.render member = stored) ∧
      ∀ property ∈ mappedProperties, ∀ stored,
        (∃ member, parse property.type property.spelling.render stored = .ok member) ↔
          stored ∈ property.values := by
  refine ⟨fun _ _ _ _ => parse_eq_ok_iff, fun property hproperty stored => ?_⟩
  have hagrees := List.all_eq_true.mp mappedProperties_agree property hproperty
  rw [parse_isOk_iff, beq_iff_eq.mp hagrees]

end EnumStorage

end Synthia
