import Synthia.Api.OpaqueCursor
import Synthia.Lib.Exceptions
import Synthia.Proofs.Paging
import Synthia.ReadModels.Filters

/-!
# When a paged request is answered

A request that binds has a sort field its resource has a key for, and a limit of at least
one, so what is left to go wrong is the cursor. The binder looks at its outer shape; its
sort value is read when the query is built, by whatever reads the field of this request,
and nothing there says no without raising.

So the answer is a page or a refusal exactly where the sort value is one the field reads:
a time in the round-trip format for a timestamp, nothing or such a time for a nullable
one, a text the database takes for a text. For an enumeration no value will do, since the
comparison behind a cursor cannot be built. The continuation of a page is such a value
for the field the page was sorted by, and need not be for another.
-/

namespace Synthia

open Text Relational

/-! ## The round-trip format -/

namespace KeysetValues

/-- Where a time is read, and how many minutes ahead of UTC that is. -/
inductive Zone : List CodePoint → Int → Prop where
  | host : Zone [] 0
  | utc : Zone [0x5A] 0
  | ahead {width hours minutes : Nat} (hwidth : width = 1 ∨ width = 2)
      (hhours : hours < 10 ^ width) (hminutes : minutes < 10 ^ 2)
      (hbound : 60 * hours + minutes ≤ 840) :
      Zone (0x2B :: (Calendar.pad width hours ++ 0x3A :: Calendar.pad 2 minutes))
        (60 * hours + minutes : Nat)
  | behind {width hours minutes : Nat} (hwidth : width = 1 ∨ width = 2)
      (hhours : hours < 10 ^ width) (hminutes : minutes < 10 ^ 2)
      (hbound : 60 * hours + minutes ≤ 840) :
      Zone (0x2D :: (Calendar.pad width hours ++ 0x3A :: Calendar.pad 2 minutes))
        (-(60 * hours + minutes : Nat))

/-- A time as the format `O` has it: a date of the years 1 to 9999 and a time of day to
seven places, an offset of at most fourteen hours, and an instant within those years. -/
def RoundTrip (text : List CodePoint) : Prop :=
  ∃ (date : Calendar.Date) (clock fraction : Nat) (zone : List CodePoint) (offset : Int),
    date.isValid = true ∧ date.year < 10 ^ 4 ∧ clock < 86400 ∧ fraction < 10 ^ 7 ∧
      Zone zone offset ∧
      text = Calendar.dateText date ++ 0x54 :: (Calendar.clockText clock ++
        0x2E :: (Calendar.pad 7 fraction ++ zone)) ∧
      (ofLocalTicks ((date.toDay * 86400 + clock : Nat) * 10000000 + fraction -
        offset * 600000000)).isSome = true

/-- Hours of one digit are not read as two. -/
theorem readPad_two_of_one {hours : Nat} (rest : List CodePoint) :
    Calendar.readPad 2 (Calendar.pad 1 hours ++ 0x3A :: rest) = none := by
  rw [Option.eq_none_iff_forall_ne_some]
  rintro ⟨n, behind⟩ h
  obtain ⟨_, htext⟩ := Calendar.readPad_eq_some.mp h
  simp only [Calendar.pad, List.nil_append, List.cons_append, List.cons.injEq] at htext
  have hcolon := htext.2.1
  have hdigit : n % 10 < 10 := Nat.mod_lt _ (by omega)
  generalize n % 10 = digit at hcolon hdigit
  revert hcolon
  revert digit
  decide

theorem readHours {width hours : Nat} (hwidth : width = 1 ∨ width = 2)
    (hhours : hours < 10 ^ width) (rest : List CodePoint) :
    (Calendar.readPad 2 (Calendar.pad width hours ++ 0x3A :: rest)).or
      (Calendar.readPad 1 (Calendar.pad width hours ++ 0x3A :: rest)) =
        some (hours, 0x3A :: rest) := by
  rcases hwidth with rfl | rfl
  · rw [readPad_two_of_one, Option.none_or, Calendar.readPad_pad hhours]
  · rw [Calendar.readPad_pad hhours, Option.some_or]

theorem readOffset_eq_some {text : List CodePoint} {offset : Int} :
    readOffset text = some offset ↔ Zone text offset := by
  constructor
  · intro h
    unfold readOffset at h
    split at h
    · injection h with h
      rw [← h]
      exact .host
    · injection h with h
      rw [← h]
      exact .utc
    · next sign rest _ =>
        simp only [Option.bind_eq_bind, Option.bind_eq_some_iff, Prod.exists,
          Calendar.expect_eq_some, Calendar.readPad_eq_some] at h
        obtain ⟨hours, _, hours_read, _, rfl, minutes, behind, ⟨hminutes, rfl⟩, h⟩ := h
        have hread : ∃ width, (width = 1 ∨ width = 2) ∧ hours < 10 ^ width ∧
            rest = Calendar.pad width hours ++
              0x3A :: (Calendar.pad 2 minutes ++ behind) := by
          rcases Option.or_eq_some_iff.mp hours_read with htwo | ⟨_, hone⟩
          · exact ⟨2, Or.inr rfl, Calendar.readPad_eq_some.mp htwo⟩
          · exact ⟨1, Or.inl rfl, Calendar.readPad_eq_some.mp hone⟩
        obtain ⟨width, hwidth, hhours, rfl⟩ := hread
        split at h
        · cases h
        · next hbounds =>
            rw [not_or, not_not, Nat.not_lt] at hbounds
            rw [hbounds.1, List.append_nil]
            split at h
            · next hsign =>
                injection h with h
                rw [hsign, ← h]
                exact .ahead hwidth hhours hminutes hbounds.2
            · split at h
              · next hsign =>
                  injection h with h
                  rw [hsign, ← h]
                  exact .behind hwidth hhours hminutes hbounds.2
              · cases h
  · intro h
    cases h with
    | host => rfl
    | utc => rfl
    | @ahead width hours minutes hwidth hhours hminutes hbound =>
        have hread := Calendar.readPad_pad hminutes []
        rw [List.append_nil] at hread
        simp only [readOffset, readHours hwidth hhours, Option.bind_eq_bind, Option.bind_some,
          Calendar.expect_cons, hread]
        rw [if_neg (by simp only [ne_eq, not_true_eq_false, false_or]; omega), if_pos trivial]
    | @behind width hours minutes hwidth hhours hminutes hbound =>
        have hread := Calendar.readPad_pad hminutes []
        rw [List.append_nil] at hread
        simp only [readOffset, readHours hwidth hhours, Option.bind_eq_bind, Option.bind_some,
          Calendar.expect_cons, hread]
        rw [if_neg (by simp only [ne_eq, not_true_eq_false, false_or]; omega),
          if_neg (by decide), if_pos trivial]

theorem parseTimestamp_isOk {text : List CodePoint} :
    (∃ value, parseTimestamp text = .ok value) ↔ RoundTrip text := by
  have hread : (∃ value, parseTimestamp text = .ok value) ↔
      ∃ value, readTimestamp text = some value := by
    unfold parseTimestamp
    cases readTimestamp text with
    | none =>
        constructor
        · rintro ⟨_, h⟩
          cases h
        · rintro ⟨_, h⟩
          cases h
    | some value => exact ⟨fun _ => ⟨value, rfl⟩, fun _ => ⟨value, rfl⟩⟩
  rw [hread]
  constructor
  · rintro ⟨value, h⟩
    simp only [readTimestamp, Option.bind_eq_bind, Option.bind_eq_some_iff, Prod.exists,
      Calendar.expect_eq_some, Calendar.readPad_eq_some, Calendar.readSeconds_eq_some,
      readOffset_eq_some] at h
    obtain ⟨_, _, ⟨date, clock, hvalid, hyear, hclock, rfl, rfl⟩, _, rfl, fraction, zone,
      ⟨hfraction, rfl⟩, offset, hzone, hticks⟩ := h
    exact ⟨date, clock, fraction, zone, offset, hvalid, hyear, hclock, hfraction, hzone, rfl,
      by rw [hticks]; rfl⟩
  · rintro ⟨date, clock, fraction, zone, offset, hvalid, hyear, hclock, hfraction, hzone, rfl,
      hticks⟩
    obtain ⟨value, hvalue⟩ := Option.isSome_iff_exists.mp hticks
    refine ⟨value, ?_⟩
    rw [readTimestamp, Calendar.readSeconds_eq_some.mpr
      ⟨date, clock, hvalid, hyear, hclock, rfl, rfl⟩]
    simp only [Option.bind_eq_bind, Option.bind_some, Calendar.expect_cons,
      Calendar.readPad_pad hfraction, readOffset_eq_some.mpr hzone]
    exact hvalue

end KeysetValues

/-! ## What a field reads -/

/-- The sort values a field of a type reads and can go on from. -/
def Server.Reads (server : Server) : ClrType → List CodePoint → Prop
  | .dateTimeOffset, value => KeysetValues.RoundTrip value
  | .nullableDateTimeOffset, value => value = [] ∨ KeysetValues.RoundTrip value
  | .string, value => server.takes value = true
  | .guid, _ | .sessionState, _ | .tenantStatus, _ => False

/-- A key that goes on from exactly the sort values its field reads. -/
def KeysetSortKey.Resumes (server : Server) {Row : Type} (key : KeysetSortKey Row) : Prop :=
  ∀ anchor, server.Reads key.type anchor.sortValue ↔
    (∃ value, key.parse anchor.sortValue = .ok value) ∧ key.type.isEnum = false ∧
      (key.parameters (some anchor)).all server.takes = true

section Resumes

variable (server : Server) {Row : Type} (field : String) (identity : Row → Uuid)

theorem resumes_timestamp (selector : Row → DateTimeOffset) :
    KeysetSortKey.Resumes server ⟨field, .dateTimeOffset, selector, identity,
      KeysetValues.render, KeysetValues.parseTimestamp⟩ :=
  fun _ => ⟨fun h => ⟨KeysetValues.parseTimestamp_isOk.mpr h, rfl, rfl⟩,
    fun h => KeysetValues.parseTimestamp_isOk.mp h.1⟩

theorem resumes_nullable (selector : Row → Option DateTimeOffset) :
    KeysetSortKey.Resumes server ⟨field, .nullableDateTimeOffset, selector, identity,
      KeysetValues.renderNullable, KeysetValues.parseNullableTimestamp⟩ := by
  intro anchor
  have hparse : (∃ value, KeysetValues.parseNullableTimestamp anchor.sortValue = .ok value) ↔
      (anchor.sortValue = [] ∨ KeysetValues.RoundTrip anchor.sortValue) := by
    unfold KeysetValues.parseNullableTimestamp
    split
    · next hempty =>
        exact ⟨fun _ => Or.inl (List.isEmpty_iff.mp hempty), fun _ => ⟨none, rfl⟩⟩
    · next hsome =>
        rw [or_iff_right fun hempty => hsome (List.isEmpty_iff.mpr hempty),
          ← KeysetValues.parseTimestamp_isOk]
        cases KeysetValues.parseTimestamp anchor.sortValue with
        | error error =>
            constructor
            · rintro ⟨_, h⟩
              cases h
            · rintro ⟨_, h⟩
              cases h
        | ok value => exact ⟨fun _ => ⟨value, rfl⟩, fun _ => ⟨some value, rfl⟩⟩
  exact ⟨fun h => ⟨hparse.mpr h, rfl, rfl⟩, fun h => hparse.mp h.1⟩

theorem resumes_text (selector : Row → List CodePoint) :
    KeysetSortKey.Resumes server ⟨field, .string, selector, identity, KeysetValues.renderText,
      KeysetValues.parseText⟩ := by
  intro anchor
  have hsent : ([anchor.sortValue].all server.takes = true) ↔
      server.takes anchor.sortValue = true := by
    rw [List.all_cons, List.all_nil, Bool.and_true]
  exact ⟨fun h => ⟨⟨anchor.sortValue, rfl⟩, rfl, hsent.mpr h⟩, fun h => hsent.mp h.2.2⟩

/-- Nothing goes on under an enumeration. -/
theorem resumes_enum {key : KeysetSortKey Row} (henum : key.type.isEnum = true) :
    key.Resumes server := by
  intro anchor
  have hnone : ¬ server.Reads key.type anchor.sortValue := by
    cases htype : key.type with
    | sessionState => exact id
    | tenantStatus => exact id
    | dateTimeOffset | nullableDateTimeOffset | string | guid =>
        rw [htype] at henum
        cases henum
  refine ⟨fun h => absurd h hnone, fun h => ?_⟩
  rw [henum] at h
  cases h.2.1

end Resumes

theorem resumes_of_mem (server : Server) {field : Σ Row : Type, KeysetSortKey Row}
    (h : field ∈ sortKeys) : field.2.Resumes server := by
  simp only [sortKeys, SessionSortKeys.summaries, SessionSortKeys.messages,
    ApprovalSortKeys.queue, ApprovalSortKeys.unexecuted, AuditSortKeys.events,
    TenantSortKeys.tenants, List.map_cons, List.map_nil, List.cons_append, List.nil_append,
    List.mem_cons, List.not_mem_nil, or_false] at h
  rcases h with rfl | rfl | rfl | rfl | rfl | rfl | rfl | rfl | rfl | rfl | rfl
  · exact resumes_timestamp server _ _ _
  · exact resumes_timestamp server _ _ _
  · exact resumes_enum server rfl
  · exact resumes_timestamp server _ _ _
  · exact resumes_timestamp server _ _ _
  · exact resumes_nullable server _ _ _
  · exact resumes_timestamp server _ _ _
  · exact resumes_nullable server _ _ _
  · exact resumes_timestamp server _ _ _
  · exact resumes_text server _ _ _
  · exact resumes_enum server rfl

/-- A query behind an anchor is built where the sort value is read and can be compared. -/
theorem after_isOk {Row : Type} {db : Database} {key : KeysetSortKey Row} {source : List Row}
    {direction : KeysetDirection} {anchor : KeysetAnchor} :
    (∃ query, key.after db source direction anchor = .ok query) ↔
      (∃ value, key.parse anchor.sortValue = .ok value) ∧ key.type.isEnum = false := by
  unfold KeysetSortKey.after KeysetSortKey.compare
  cases key.parse anchor.sortValue with
  | error error =>
      constructor
      · rintro ⟨_, h⟩
        cases h
      · rintro ⟨⟨_, h⟩, _⟩
        cases h
  | ok value =>
      cases key.type.isEnum with
      | true =>
          constructor
          · rintro ⟨_, h⟩
            cases h
          · rintro ⟨_, h⟩
            cases h
      | false => exact ⟨fun _ => ⟨⟨value, rfl⟩, rfl⟩, fun _ => ⟨_, rfl⟩⟩

theorem takeAsync_isOk {Row : Type} {db : Database} {key : KeysetSortKey Row}
    {source : List Row} {direction : KeysetDirection} {anchor : Option KeysetAnchor}
    {limit : Nat} (hlimit : 1 ≤ limit) :
    (∃ slice, takeAsync db source key direction anchor limit = .ok slice) ↔
      ∃ query, key.resumed db source direction anchor = .ok query := by
  constructor
  · rintro ⟨slice, h⟩
    rw [takeAsync, if_neg (Nat.not_lt.mpr hlimit)] at h
    obtain ⟨query, hquery, _⟩ := Exceptions.bind_eq_ok.mp h
    exact ⟨query, hquery⟩
  · rintro ⟨query, hquery⟩
    exact ⟨_, takeAsync_of_resumed hlimit hquery⟩

/-! ## What a request binds to -/

namespace PagedResource

variable {resource : PagedResource}

theorem sortKey_mem {key : KeysetSortKey resource.Row} (h : key ∈ resource.sortKeys) :
    (⟨resource.Row, key⟩ : Σ Row : Type, KeysetSortKey Row) ∈ Synthia.sortKeys := by
  simp only [Synthia.sortKeys, List.mem_append, List.mem_map]
  cases resource with
  | customerSessions => exact Or.inl (Or.inl (Or.inl (Or.inl (Or.inl ⟨key, h, rfl⟩))))
  | staffLiveSessions => exact Or.inl (Or.inl (Or.inl (Or.inl (Or.inl ⟨key, h, rfl⟩))))
  | customerSessionMessages => exact Or.inl (Or.inl (Or.inl (Or.inl (Or.inr ⟨key, h, rfl⟩))))
  | staffApprovalQueue => exact Or.inl (Or.inl (Or.inl (Or.inr ⟨key, h, rfl⟩)))
  | staffUnexecutedApprovals => exact Or.inl (Or.inl (Or.inr ⟨key, h, rfl⟩))
  | staffAudit => exact Or.inl (Or.inr ⟨key, h, rfl⟩)
  | staffTenants => exact Or.inr ⟨key, h, rfl⟩

/-- The fields of the whitelist are the fields there are keys for. -/
theorem fields_eq (resource : PagedResource) :
    resource.sortKeys.map (·.field) = resource.whitelist.sortable := by
  cases resource <;> rfl

theorem default_mem (resource : PagedResource) :
    resource.whitelist.defaultSort.field ∈ resource.whitelist.sortable := by
  cases resource <;> decide

theorem field_mem {raw : Option (List CodePoint)} {sort : SortSpec}
    (h : resource.whitelist.tryResolveSort raw = some sort) :
    sort.field ∈ resource.whitelist.sortable := by
  unfold QueryWhitelist.tryResolveSort at h
  split at h
  · injection h with h
    rw [← h]
    exact resource.default_mem
  · obtain ⟨name, hname, hsort⟩ := Option.map_eq_some_iff.mp h
    rw [← hsort]
    exact List.mem_of_find?_eq_some hname

/-- The binder lets through no field the read model has no key for. -/
theorem sortKey_exists {raw : Option (List CodePoint)} {sort : SortSpec}
    (h : resource.whitelist.tryResolveSort raw = some sort) :
    ∃ key ∈ resource.sortKeys, resource.sortKey sort.field = some key := by
  have hfield := field_mem h
  rw [← resource.fields_eq, List.mem_map] at hfield
  obtain ⟨key, hkey, hname⟩ := hfield
  have hsome : (resource.sortKey sort.field).isSome = true := by
    rw [sortKey, List.find?_isSome]
    exact ⟨key, hkey, beq_iff_eq.mpr hname⟩
  obtain ⟨found, hfound⟩ := Option.isSome_iff_exists.mp hsome
  exact ⟨found, List.mem_of_find?_eq_some hfound, hfound⟩

end PagedResource

namespace QueryBinding

theorem clampLimit_pos (requested : Nat) : 1 ≤ clampLimit requested := by
  unfold clampLimit defaultLimit maximumLimit
  split <;> omega

theorem tryBindLimit_pos {query : QueryString} {limit : Nat}
    (h : tryBindLimit query = .ok limit) : 1 ≤ limit := by
  unfold tryBindLimit at h
  split at h
  · injection h with h
    rw [← h]
    decide
  · split at h
    · cases h
    · next requested _ =>
        injection h with h
        rw [← h]
        exact clampLimit_pos requested

theorem tryBindPage_eq_ok {codec : CursorCodec} {query : QueryString}
    {whitelist : QueryWhitelist} {request : KeysetRequest} :
    tryBindPage codec query whitelist = .ok request ↔
      whitelist.tryResolveSort (query.first "sort") = some request.sort ∧
      OpaqueCursor.tryDecode codec (query.first "cursor") = some request.position ∧
      tryBindLimit query = .ok request.limit := by
  unfold tryBindPage
  constructor
  · intro h
    split at h
    · cases h
    · next sort hsort =>
        split at h
        · cases h
        · next position hposition =>
            obtain ⟨limit, hlimit, hrequest⟩ := Exceptions.map_eq_ok.mp h
            rw [← hrequest]
            exact ⟨hsort, hposition, hlimit⟩
  · rintro ⟨hsort, hposition, hlimit⟩
    rw [hsort, hposition, hlimit]
    rfl

end QueryBinding

/-! ## A page or a refusal -/

def PageAnswer.answered {Row : Type} : PageAnswer Row → Bool
  | .refused _ | .page _ => true
  | .raised _ => false

namespace PagedResource

variable (server : Server) (codec : CursorCodec) (resource : PagedResource)

/-- The sort value of a request's cursor is one its field reads. Without a cursor, and
where another parameter is refused, there is nothing to be read. -/
def Continues (query : QueryString) : Prop :=
  ∀ sort anchor limit key,
    resource.whitelist.tryResolveSort (query.first "sort") = some sort →
    OpaqueCursor.tryDecode codec (query.first "cursor") = some (some anchor) →
    QueryBinding.tryBindLimit query = .ok limit →
    resource.sortKey sort.field = some key →
    server.Reads key.type anchor.sortValue

/-- A page is a query that runs, its parameters taken. -/
theorem takePage_isOk {source : List resource.Row} {request : KeysetRequest}
    {key : KeysetSortKey resource.Row}
    (hfield : resource.sortKey request.sort.field = some key) (hlimit : 1 ≤ request.limit) :
    (∃ page, resource.takePage server source request = .ok page) ↔
      (∃ query, key.resumed server.toDatabase source request.sort.direction
        request.position = .ok query) ∧
      (key.parameters request.position).all server.takes = true := by
  have hfind : (resource.sortKeys.find? fun key => key.field == request.sort.field) =
      some key := hfield
  rw [← takeAsync_isOk hlimit]
  unfold takePage pageOver
  rw [hfield, hfind]
  dsimp only [Option.map_some, Option.getD_some]
  cases takeAsync server.toDatabase source key request.sort.direction request.position
      request.limit with
  | error error =>
      constructor
      · rintro ⟨_, h⟩
        cases h
      · rintro ⟨⟨_, h⟩, _⟩
        cases h
  | ok slice =>
      dsimp only
      cases (key.parameters request.position).all server.takes with
      | true => exact ⟨fun _ => ⟨⟨slice, rfl⟩, rfl⟩, fun _ => ⟨_, rfl⟩⟩
      | false =>
          constructor
          · rintro ⟨_, h⟩
            cases h
          · rintro ⟨_, h⟩
            cases h

/-- A bound request is answered with a page where its field reads its cursor. -/
theorem takePage_reads (source : List resource.Row) {request : KeysetRequest}
    {key : KeysetSortKey resource.Row} (hkey : key ∈ resource.sortKeys)
    (hfield : resource.sortKey request.sort.field = some key) (hlimit : 1 ≤ request.limit) :
    (∃ page, resource.takePage server source request = .ok page) ↔
      ∀ anchor, request.position = some anchor → server.Reads key.type anchor.sortValue := by
  rw [takePage_isOk server resource hfield hlimit]
  cases hposition : request.position with
  | none =>
      constructor
      · intro _ anchor h
        cases h
      · exact fun _ => ⟨⟨source, rfl⟩, rfl⟩
  | some anchor =>
      have hresumes := resumes_of_mem server (sortKey_mem hkey) anchor
      have hquery : (∃ query, key.resumed server.toDatabase source request.sort.direction
          (some anchor) = .ok query) ↔ _ := after_isOk
      rw [hquery, and_assoc, ← hresumes]
      constructor
      · intro h other hother
        injection hother with hother
        rw [← hother]
        exact h
      · exact fun h => h anchor rfl

/-- **When a paged request is answered with a page or a refusal.** For every resource,
collection and query string, that is where the sort value of its cursor is one the field
the request is sorted by reads. -/
theorem answered_iff (source : List resource.Row) (query : QueryString) :
    (resource.answer server codec source query).answered = true ↔
      resource.Continues server codec query := by
  unfold answer
  cases hbind : QueryBinding.tryBindPage codec query resource.whitelist with
  | error detail =>
      refine ⟨fun _ sort anchor limit key hsort hcursor hlimit _ => ?_, fun _ => rfl⟩
      have hok : QueryBinding.tryBindPage codec query resource.whitelist =
          .ok ⟨limit, sort, some anchor⟩ :=
        QueryBinding.tryBindPage_eq_ok.mpr ⟨hsort, hcursor, hlimit⟩
      rw [hbind] at hok
      cases hok
  | ok request =>
      obtain ⟨hsort, hcursor, hlimit⟩ := QueryBinding.tryBindPage_eq_ok.mp hbind
      obtain ⟨key, hkey, hfield⟩ := sortKey_exists hsort
      have hpage := takePage_reads server resource source hkey hfield
        (QueryBinding.tryBindLimit_pos hlimit)
      refine Iff.trans ?_ (Iff.trans hpage ?_)
      · dsimp only
        cases resource.takePage server source request with
        | error failure =>
            constructor
            · intro h
              cases h
            · rintro ⟨_, h⟩
              cases h
        | ok page => exact ⟨fun _ => ⟨page, rfl⟩, fun _ => rfl⟩
      constructor
      · intro h sort anchor limit other hsort' hcursor' _ hother
        rw [hsort] at hsort'
        injection hsort' with hsame
        rw [hcursor] at hcursor'
        injection hcursor' with hposition
        rw [← hsame, hfield] at hother
        injection hother with hother
        rw [← hother]
        exact h anchor hposition
      · intro h anchor hposition
        rw [hposition] at hcursor
        exact h _ anchor _ key hsort hcursor hlimit hfield

end PagedResource

/-! ### A cursor under another field -/

namespace SampleCursor

def server : Server := ⟨plainDatabase true, fun text => !text.contains 0⟩

/-- What a page of sessions by state that ended in a resolving one was continued with. -/
def byState : List CodePoint :=
  Api.Paging.OpaqueCursor.encode ⟨KeysetValues.renderEnum 2, 7⟩

/-- The same listing by the time of its last change. -/
def byTime : QueryString := [(ofString "sort", ofString "updatedAt"), (ofString "cursor", byState)]

theorem other_field_raises :
    ¬ ∀ (server : Server) (codec : CursorCodec) (resource : PagedResource)
      (source : List resource.Row) (query : QueryString),
      (resource.answer server codec source query).answered = true := by
  intro h
  have hraised : (PagedResource.customerSessions.answer server Api.Paging.codec []
      byTime).answered = false := by decide +kernel
  rw [h server Api.Paging.codec .customerSessions [] byTime] at hraised
  cases hraised

end SampleCursor

end Synthia
