import Synthia.Proofs.PagedAnswers
import Synthia.Proofs.PublishedFilters

/-!
# When nothing of a query is dropped

A parameter of a route is its sort, its cursor, its limit or one of its filters, and each
reads a value in its own way. What a handler has in hand is, for each parameter it binds,
what the first value is read as, or the default where that is absent; so a request is
refused where a name is not known, where a first value cannot be read, or where the range
of an audit search ends before it begins, and nowhere else.

What is left is a matter of the other values. One is bound where it is read as the first
is, and where the handler binds its parameter at all: a route that is not paged lets a
sort, a limit and a cursor through, and binds none of them.
-/

namespace Synthia

open Text Relational

/-! ## Parameters -/

/-- What a query of a route can give a value of. -/
inductive QueryParameter where
  | sort
  | cursor
  | limit
  | filter (field : FilterField)
  deriving DecidableEq

/-- What a value is read as. -/
inductive BoundValue where
  | sort (spec : SortSpec)
  | cursor (position : KeysetAnchor)
  | limit (size : Nat)
  | filter (value : FilterValue)

def QueryParameter.name : QueryParameter → String
  | sort => "sort"
  | cursor => "cursor"
  | limit => "limit"
  | filter field => field.name

def ViewQuery.parameters (view : ViewQuery) : List QueryParameter :=
  [.sort, .cursor, .limit] ++ view.filters.map .filter

/-- Filters are bound by every handler, the rest where the route is paged. -/
def ViewQuery.Binds (view : ViewQuery) : QueryParameter → Prop
  | .filter _ => True
  | .sort | .cursor | .limit => view.paged = true

/-- What a request in hand holds of a parameter. -/
def BoundRequest.held (bound : BoundRequest) : QueryParameter → Option BoundValue
  | .sort => bound.page.map fun page => .sort page.sort
  | .cursor => (bound.page.bind (·.position)).map .cursor
  | .limit => bound.page.map fun page => .limit page.limit
  | .filter field => (bound.filters.lookup field).join.map .filter

/-- An empty text is no value, unless of a free text. -/
def QueryParameter.isAbsent : QueryParameter → List CodePoint → Bool
  | .filter ⟨_, .text⟩, _ => false
  | .sort, value | .cursor, value | .limit, value | .filter ⟨_, .identifier⟩, value
  | .filter ⟨_, .timestamp⟩, value | .filter ⟨_, .enumeration _⟩, value => value.isEmpty

section Reading

variable (tryParse : List CodePoint → Option DateTimeOffset) (codec : CursorCodec)

/-- What a value of a filter is read as. -/
def FilterType.read (value : List CodePoint) : FilterType → Option FilterValue
  | .text => some (.text value)
  | .identifier => (Guid.tryParseExactD value).map .identifier
  | .timestamp => (tryParse value).map .timestamp
  | .enumeration members =>
      ((EnumText.tryParse members value).filter fun number =>
        !QueryBinding.isUnknown members number).map .member

/-- What a value of a parameter is read as. A blank sort names no field. -/
def ViewQuery.read (view : ViewQuery) (value : List CodePoint) :
    QueryParameter → Option BoundValue
  | .sort =>
      if PrincipalFactory.isNullOrWhiteSpace (some value) then none
      else (view.whitelist.tryResolveSort (some value)).map .sort
  | .cursor => ((codec.decodeFromChars value).bind OpaqueCursor.ofPayload).map .cursor
  | .limit =>
      (tryParseInt32 value).map fun requested => .limit (QueryBinding.clampLimit requested)
  | .filter field => (field.type.read tryParse value).map .filter

/-- Every value in a query is of a parameter of the route, and is what the request holds. -/
def NothingDropped (view : ViewQuery) (query : QueryString) (bound : BoundRequest) : Prop :=
  ∀ pair ∈ query, ∃ parameter ∈ view.parameters,
    equalsIgnoreCase pair.1 (ofString parameter.name) = true ∧
      (parameter.isAbsent pair.2 = false →
        ∃ value, view.read tryParse codec pair.2 parameter = some value ∧
          bound.held parameter = some value)

/-- What was published is what is taken, and what is in the query is what is bound. -/
def MeansPublished (route : ViewRoute) (query : QueryString) : Prop :=
  (∀ field ∈ route.declared.filters, ExactFilter query field) ∧
  ∀ bound, route.bind tryParse codec query = .ok bound →
    NothingDropped tryParse codec route.declared query bound

/-! ## What binds -/

/-- What a parameter has where nothing is supplied for it. -/
def ViewQuery.otherwise (view : ViewQuery) : QueryParameter → Option BoundValue
  | .sort => some (.sort view.whitelist.defaultSort)
  | .limit => some (.limit QueryBinding.defaultLimit)
  | .cursor | .filter _ => none

/-- The texts that leave a parameter at what it has otherwise. -/
def QueryParameter.isPassedOver (parameter : QueryParameter) (value : List CodePoint) : Bool :=
  parameter.isAbsent value ||
    parameter == .sort && PrincipalFactory.isNullOrWhiteSpace (some value)

/-- What the first value of a parameter comes to, if it can be read. -/
def ViewQuery.readFirst (view : ViewQuery) (query : QueryString) (parameter : QueryParameter) :
    Option (Option BoundValue) :=
  match query.first parameter.name with
  | none => some (view.otherwise parameter)
  | some value =>
      if parameter.isPassedOver value then some (view.otherwise parameter)
      else (view.read tryParse codec value parameter).map some

/-- The names of a query are those of parameters, as they are spelt. -/
def ViewQuery.Knows (view : ViewQuery) (query : QueryString) : Prop :=
  ∀ key ∈ query.keys, QueryBinding.isPaging key = true ∨
    view.whitelist.allowsFilterOn key = true

/-- The first value of every parameter that is bound can be read. -/
def ViewQuery.Readable (view : ViewQuery) (query : QueryString) : Prop :=
  ∀ parameter ∈ view.parameters, view.Binds parameter →
    ∃ value, view.readFirst tryParse codec query parameter = some value

/-- A range that ends where it begins, or before. -/
def ReversedRange (query : QueryString) : Prop :=
  ∃ lower upper : DateTimeOffset,
    StaffViewEndpoints.searchAudit.readFirst tryParse codec query
      (.filter StaffViewEndpoints.occurredFrom) = some (some (.filter (.timestamp lower))) ∧
    StaffViewEndpoints.searchAudit.readFirst tryParse codec query
      (.filter StaffViewEndpoints.occurredTo) = some (some (.filter (.timestamp upper))) ∧
    upper.ticks ≤ lower.ticks

/-- What a route refuses. -/
def ViewRoute.Refuses (route : ViewRoute) (query : QueryString) : Prop :=
  ¬ route.declared.Knows query ∨ ¬ route.declared.Readable tryParse codec query ∨
    route = .staffAudit ∧ ReversedRange tryParse codec query

/-- Every value of a parameter is read as its first one is, and every value there is of a
parameter the route binds. -/
def ViewRoute.Agrees (route : ViewRoute) (query : QueryString) : Prop :=
  ∀ pair ∈ query, ∀ parameter ∈ route.declared.parameters,
    equalsIgnoreCase pair.1 (ofString parameter.name) = true →
      parameter.isAbsent pair.2 = false →
        route.declared.Binds parameter ∧
          ∃ value, route.declared.read tryParse codec pair.2 parameter = some value ∧
            route.declared.readFirst tryParse codec query parameter = some (some value)

end Reading

/-! ### One parameter at a time -/

section Binding

variable {tryParse : List CodePoint → Option DateTimeOffset} {codec : CursorCodec}
  {view : ViewQuery} {query : QueryString}

/-- A parameter that passes over an empty text alone. -/
def QueryParameter.Plain (parameter : QueryParameter) : Prop :=
  ∀ value, parameter.isPassedOver value = value.isEmpty

theorem plain_cursor : QueryParameter.cursor.Plain := fun _ => Bool.or_false _

theorem plain_limit : QueryParameter.limit.Plain := fun _ => Bool.or_false _

theorem plain_filter {field : FilterField} (h : field.type ≠ .text) :
    (QueryParameter.filter field).Plain := by
  obtain ⟨name, type⟩ := field
  intro value
  cases type with
  | text => exact absurd rfl h
  | identifier | timestamp | enumeration members => exact Bool.or_false _

theorem readFirst_of_empty {parameter : QueryParameter} (hplain : parameter.Plain)
    (h : isNullOrEmpty (query.first parameter.name) = true) :
    view.readFirst tryParse codec query parameter = some (view.otherwise parameter) := by
  unfold ViewQuery.readFirst
  cases hfirst : query.first parameter.name with
  | none => rfl
  | some value =>
      rw [hfirst, isNullOrEmpty, Option.getD_some] at h
      dsimp only
      rw [hplain value, if_pos h]

theorem readFirst_of_some {parameter : QueryParameter} (hplain : parameter.Plain)
    (h : isNullOrEmpty (query.first parameter.name) = false) :
    view.readFirst tryParse codec query parameter =
      (view.read tryParse codec ((query.first parameter.name).getD []) parameter).map some := by
  unfold ViewQuery.readFirst
  cases hfirst : query.first parameter.name with
  | none =>
      rw [hfirst] at h
      cases h
  | some value =>
      rw [hfirst, isNullOrEmpty, Option.getD_some] at h
      dsimp only
      rw [hplain value, h, if_neg Bool.false_ne_true, Option.getD_some]

theorem tryResolveSort_iff {sort : SortSpec} :
    view.whitelist.tryResolveSort (query.first "sort") = some sort ↔
      view.readFirst tryParse codec query .sort = some (some (.sort sort)) := by
  have hblank : ∀ value, QueryParameter.sort.isPassedOver value =
      PrincipalFactory.isNullOrWhiteSpace (some value) := by
    intro value
    cases value with
    | nil => rfl
    | cons c value => exact Bool.false_or _
  have hdefault : ∀ raw, PrincipalFactory.isNullOrWhiteSpace raw = true →
      view.whitelist.tryResolveSort raw = some view.whitelist.defaultSort :=
    fun raw h => if_pos h
  unfold ViewQuery.readFirst QueryParameter.name
  cases query.first "sort" with
  | none =>
      rw [hdefault none rfl]
      simp only [ViewQuery.otherwise, Option.some.injEq, BoundValue.sort.injEq]
  | some value =>
      dsimp only
      rw [hblank, ViewQuery.read]
      cases h : PrincipalFactory.isNullOrWhiteSpace (some value) with
      | true =>
          rw [hdefault _ h]
          simp only [if_true, ViewQuery.otherwise, Option.some.injEq, BoundValue.sort.injEq]
      | false =>
          rw [if_neg Bool.false_ne_true, if_neg Bool.false_ne_true, Option.map_map,
            Option.map_eq_some_iff]
          simp only [Function.comp_apply, Option.some.injEq, BoundValue.sort.injEq,
            exists_eq_right]

theorem tryDecode_iff {position : Option KeysetAnchor} :
    OpaqueCursor.tryDecode codec (query.first "cursor") = some position ↔
      view.readFirst tryParse codec query .cursor = some (position.map .cursor) := by
  unfold OpaqueCursor.tryDecode
  cases h : isNullOrEmpty (query.first "cursor") with
  | true =>
      rw [if_pos rfl, readFirst_of_empty plain_cursor h]
      cases position <;> simp [ViewQuery.otherwise]
  | false =>
      rw [if_neg Bool.false_ne_true, readFirst_of_some plain_cursor h, ViewQuery.read,
        QueryParameter.name, Option.map_map, Option.map_eq_some_iff, Option.map_eq_some_iff]
      cases position <;> simp

theorem tryBindLimit_iff {limit : Nat} :
    QueryBinding.tryBindLimit query = .ok limit ↔
      view.readFirst tryParse codec query .limit = some (some (.limit limit)) := by
  unfold QueryBinding.tryBindLimit
  cases h : isNullOrEmpty (query.first "limit") with
  | true =>
      rw [if_pos rfl, readFirst_of_empty plain_limit h]
      simp only [ViewQuery.otherwise, Except.ok.injEq, Option.some.injEq, BoundValue.limit.injEq]
  | false =>
      rw [if_neg Bool.false_ne_true, readFirst_of_some plain_limit h, ViewQuery.read,
        QueryParameter.name]
      cases tryParseInt32 ((query.first "limit").getD []) with
      | none => exact iff_of_false (fun h => nomatch h) fun h => nomatch h
      | some requested =>
          simp only [Except.ok.injEq, Option.map_some, Option.some.injEq,
            BoundValue.limit.injEq]

/-- A filter that is absent or parsed, whatever it is parsed into. -/
theorem parsed_iff {α : Type} {field : FilterField} (htext : field.type ≠ .text)
    {parse : List CodePoint → Option α} {wrap : α → FilterValue}
    (hread : ∀ text, field.type.read tryParse text = (parse text).map wrap)
    {bound : Except (List CodePoint) (Option α)}
    (hbound : ∃ detail, bound = if isNullOrEmpty (query.first field.name) then .ok none
      else match parse ((query.first field.name).getD []) with
        | none => .error detail
        | some parsed => .ok (some parsed)) {value : Option FilterValue} :
    bound.map (·.map wrap) = .ok value ↔
      view.readFirst tryParse codec query (.filter field) = some (value.map .filter) := by
  obtain ⟨detail, rfl⟩ := hbound
  cases h : isNullOrEmpty (query.first field.name) with
  | true =>
      rw [if_pos rfl, readFirst_of_empty (plain_filter htext) h]
      cases value <;> simp [Except.map, ViewQuery.otherwise]
  | false =>
      rw [if_neg Bool.false_ne_true, readFirst_of_some (plain_filter htext) h, ViewQuery.read,
        QueryParameter.name, hread]
      cases parse ((query.first field.name).getD []) with
      | none => exact iff_of_false (fun h => nomatch h) fun h => nomatch h
      | some parsed => cases value <;> simp [Except.map]

theorem bindFilter_iff {field : FilterField} {value : Option FilterValue} :
    QueryBinding.bindFilter tryParse query field = .ok value ↔
      view.readFirst tryParse codec query (.filter field) = some (value.map .filter) := by
  obtain ⟨name, type⟩ := field
  cases type with
  | text =>
      unfold QueryBinding.bindFilter ViewQuery.readFirst QueryParameter.name
      dsimp only
      cases query.first name with
      | none => cases value <;> simp [ViewQuery.otherwise]
      | some text =>
          have hkept : (QueryParameter.filter ⟨name, .text⟩).isPassedOver text = false := rfl
          dsimp only
          rw [hkept, if_neg Bool.false_ne_true]
          cases value <;> simp [ViewQuery.read, FilterType.read]
  | identifier =>
      show (QueryBinding.tryBindGuid query name).map (·.map .identifier) = .ok value ↔ _
      refine parsed_iff (fun h => FilterType.noConfusion h) (fun _ => rfl) ?_
      unfold QueryBinding.tryBindGuid
      constructor
      cases Guid.tryParseExactD ((query.first name).getD []) <;> rfl
  | timestamp =>
      show (QueryBinding.tryBindTimestamp tryParse query name).map (·.map .timestamp) =
        .ok value ↔ _
      refine parsed_iff (fun h => FilterType.noConfusion h) (fun _ => rfl) ?_
      unfold QueryBinding.tryBindTimestamp
      constructor
      cases tryParse ((query.first name).getD []) <;> rfl
  | enumeration members =>
      show (QueryBinding.tryBindEnum members query name).map (·.map .member) = .ok value ↔ _
      refine parsed_iff (fun h => FilterType.noConfusion h) (fun _ => rfl) ?_
      unfold QueryBinding.tryBindEnum
      constructor
      dsimp only
      cases (EnumText.tryParse members ((query.first name).getD [])).filter
        (fun number => !QueryBinding.isUnknown members number) <;> rfl

/-! ### The whole query -/

theorem tryRejectUnknownFilters_eq_ok {whitelist : QueryWhitelist} :
    QueryBinding.tryRejectUnknownFilters query whitelist = .ok () ↔
      ∀ key ∈ query.keys, QueryBinding.isPaging key = true ∨
        whitelist.allowsFilterOn key = true := by
  have hnone : (query.keys.find? fun name =>
      !QueryBinding.isPaging name && !whitelist.allowsFilterOn name) = none ↔
        ∀ key ∈ query.keys, QueryBinding.isPaging key = true ∨
          whitelist.allowsFilterOn key = true := by
    rw [List.find?_eq_none]
    refine forall₂_congr fun key _ => ?_
    rw [← Bool.not_or, Bool.not_eq_true, Bool.not_eq_false', Bool.or_eq_true]
  rw [← hnone]
  unfold QueryBinding.tryRejectUnknownFilters
  cases query.keys.find? fun name =>
      !QueryBinding.isPaging name && !whitelist.allowsFilterOn name with
  | none => exact ⟨fun _ => rfl, fun _ => rfl⟩
  | some name => exact iff_of_false (fun h => nomatch h) fun h => nomatch h

/-- What binding comes to, one part after the other. -/
theorem bind_eq_ok {bound : BoundRequest} :
    view.bind tryParse codec query = .ok bound ↔
      view.Knows query ∧
      view.bindPage codec query = .ok bound.page ∧
      (view.filters.mapM fun field =>
        (QueryBinding.bindFilter tryParse query field).map (field, ·)) = .ok bound.filters := by
  unfold ViewQuery.bind ViewQuery.Knows
  rw [Exceptions.bind_eq_ok, ← tryRejectUnknownFilters_eq_ok]
  constructor
  · rintro ⟨_, hknown, h⟩
    obtain ⟨page, hpage, h⟩ := Exceptions.bind_eq_ok.mp h
    obtain ⟨filters, hfilters, h⟩ := Exceptions.bind_eq_ok.mp h
    injection h with h
    rw [← h]
    exact ⟨hknown, hpage, hfilters⟩
  · rintro ⟨hknown, hpage, hfilters⟩
    refine ⟨(), hknown, ?_⟩
    rw [hpage, hfilters]
    rfl

theorem bindPage_eq_ok {page : Option KeysetRequest} :
    view.bindPage codec query = .ok page ↔
      view.paged = false ∧ page = none ∨
      view.paged = true ∧ ∃ request, page = some request ∧
        QueryBinding.tryBindPage codec query view.whitelist = .ok request := by
  unfold ViewQuery.bindPage
  cases view.paged with
  | false =>
      constructor
      · intro h
        injection h with h
        exact Or.inl ⟨rfl, h.symm⟩
      · rintro (⟨_, rfl⟩ | ⟨h, _⟩)
        · rfl
        · cases h
  | true =>
      rw [if_pos rfl, Exceptions.map_eq_ok]
      constructor
      · rintro ⟨request, hrequest, rfl⟩
        exact Or.inr ⟨rfl, request, rfl, hrequest⟩
      · rintro (⟨h, _⟩ | ⟨_, request, rfl, hrequest⟩)
        · cases h
        · exact ⟨request, hrequest, rfl⟩

/-- **What is in hand is what the first values are read as.** -/
theorem held_of_bind {bound : BoundRequest} (h : view.bind tryParse codec query = .ok bound)
    {parameter : QueryParameter} (hparameter : parameter ∈ view.parameters)
    (hbinds : view.Binds parameter) :
    view.readFirst tryParse codec query parameter = some (bound.held parameter) := by
  obtain ⟨_, hpage, hfilters⟩ := bind_eq_ok.mp h
  have hrequest : view.paged = true → ∃ request, bound.page = some request ∧
      QueryBinding.tryBindPage codec query view.whitelist = .ok request := by
    intro hpaged
    rcases bindPage_eq_ok.mp hpage with ⟨hunpaged, _⟩ | ⟨_, hrequest⟩
    · rw [hpaged] at hunpaged
      cases hunpaged
    · exact hrequest
  cases parameter with
  | sort =>
      obtain ⟨request, hheld, hbound⟩ := hrequest hbinds
      rw [BoundRequest.held, hheld]
      exact tryResolveSort_iff.mp (QueryBinding.tryBindPage_eq_ok.mp hbound).1
  | cursor =>
      obtain ⟨request, hheld, hbound⟩ := hrequest hbinds
      rw [BoundRequest.held, hheld]
      exact tryDecode_iff.mp (QueryBinding.tryBindPage_eq_ok.mp hbound).2.1
  | limit =>
      obtain ⟨request, hheld, hbound⟩ := hrequest hbinds
      rw [BoundRequest.held, hheld]
      exact tryBindLimit_iff.mp (QueryBinding.tryBindPage_eq_ok.mp hbound).2.2
  | filter field =>
      have hfield : field ∈ view.filters := by
        simpa [ViewQuery.parameters] using hparameter
      obtain ⟨value, hvalue, hlookup⟩ := Exceptions.mapM_lookup hfilters hfield
      rw [BoundRequest.held, hlookup]
      exact bindFilter_iff.mp hvalue

/-- Of what a handler does not bind, it has nothing in hand. -/
theorem held_of_not_binds {bound : BoundRequest}
    (h : view.bind tryParse codec query = .ok bound) {parameter : QueryParameter}
    (hbinds : ¬ view.Binds parameter) : bound.held parameter = none := by
  obtain ⟨_, hpage, _⟩ := bind_eq_ok.mp h
  have hnone : view.paged ≠ true → bound.page = none := by
    intro hunpaged
    rcases bindPage_eq_ok.mp hpage with ⟨_, hnone⟩ | ⟨hpaged, _⟩
    · exact hnone
    · exact absurd hpaged hunpaged
  cases parameter with
  | sort | cursor | limit =>
      rw [BoundRequest.held, hnone hbinds]
      rfl
  | filter field => exact absurd trivial hbinds

/-- What a parameter can be read as. -/
def QueryParameter.Fits : QueryParameter → Option BoundValue → Prop
  | .sort, value => ∃ spec, value = some (.sort spec)
  | .cursor, value => ∃ position : Option KeysetAnchor, value = position.map .cursor
  | .limit, value => ∃ size, value = some (.limit size)
  | .filter _, value => ∃ held : Option FilterValue, value = held.map .filter

theorem read_fits {parameter : QueryParameter} {text : List CodePoint} {value : BoundValue}
    (h : view.read tryParse codec text parameter = some value) : parameter.Fits (some value) := by
  cases parameter with
  | sort =>
      rw [ViewQuery.read] at h
      split at h
      · cases h
      · obtain ⟨spec, _, rfl⟩ := Option.map_eq_some_iff.mp h
        exact ⟨spec, rfl⟩
  | cursor =>
      obtain ⟨position, _, rfl⟩ := Option.map_eq_some_iff.mp h
      exact ⟨some position, rfl⟩
  | limit =>
      obtain ⟨requested, _, rfl⟩ := Option.map_eq_some_iff.mp h
      exact ⟨_, rfl⟩
  | filter field =>
      obtain ⟨held, _, rfl⟩ := Option.map_eq_some_iff.mp h
      exact ⟨some held, rfl⟩

theorem readFirst_fits {parameter : QueryParameter} {value : Option BoundValue}
    (h : view.readFirst tryParse codec query parameter = some value) :
    parameter.Fits value := by
  have hotherwise : parameter.Fits (view.otherwise parameter) := by
    cases parameter with
    | sort | limit => exact ⟨_, rfl⟩
    | cursor | filter field => exact ⟨none, rfl⟩
  unfold ViewQuery.readFirst at h
  split at h
  · injection h with h
    rw [← h]
    exact hotherwise
  · split at h
    · injection h with h
      rw [← h]
      exact hotherwise
    · obtain ⟨read, hread, rfl⟩ := Option.map_eq_some_iff.mp h
      exact read_fits hread

/-- **A query binds where its names are known and its first values can be read.** -/
theorem bind_isOk : (∃ bound, view.bind tryParse codec query = .ok bound) ↔
    view.Knows query ∧ view.Readable tryParse codec query := by
  constructor
  · rintro ⟨bound, h⟩
    exact ⟨(bind_eq_ok.mp h).1, fun parameter hparameter hbinds =>
      ⟨_, held_of_bind h hparameter hbinds⟩⟩
  · rintro ⟨hknown, hreadable⟩
    have hpage : ∃ page, view.bindPage codec query = .ok page := by
      cases hpaged : view.paged with
      | false => exact ⟨none, bindPage_eq_ok.mpr (Or.inl ⟨hpaged, rfl⟩)⟩
      | true =>
          have hfirst : ∀ parameter ∈ [QueryParameter.sort, .cursor, .limit],
              view.Binds parameter → ∃ value,
                view.readFirst tryParse codec query parameter = some value :=
            fun parameter hparameter => hreadable parameter
              (List.mem_append_left _ hparameter)
          obtain ⟨_, hsort⟩ := hfirst .sort (by decide) hpaged
          obtain ⟨_, hcursor⟩ := hfirst .cursor (by decide) hpaged
          obtain ⟨_, hlimit⟩ := hfirst .limit (by decide) hpaged
          obtain ⟨sort, rfl⟩ := readFirst_fits hsort
          obtain ⟨position, rfl⟩ := readFirst_fits hcursor
          obtain ⟨limit, rfl⟩ := readFirst_fits hlimit
          exact ⟨some ⟨limit, sort, position⟩, bindPage_eq_ok.mpr (Or.inr ⟨hpaged, _, rfl,
            QueryBinding.tryBindPage_eq_ok.mpr ⟨tryResolveSort_iff.mpr hsort,
              tryDecode_iff.mpr hcursor, tryBindLimit_iff.mpr hlimit⟩⟩)⟩
    have hfilters : ∃ filters, (view.filters.mapM fun field =>
        (QueryBinding.bindFilter tryParse query field).map (field, ·)) = .ok filters := by
      refine Exceptions.mapM_isOk.mpr fun field hfield => ?_
      obtain ⟨_, hvalue⟩ := hreadable (.filter field)
        (List.mem_append_right _ (List.mem_map_of_mem hfield)) trivial
      obtain ⟨held, rfl⟩ := readFirst_fits hvalue
      exact ⟨(field, held), Exceptions.map_eq_ok.mpr ⟨held, bindFilter_iff.mpr hvalue, rfl⟩⟩
    obtain ⟨page, hpage⟩ := hpage
    obtain ⟨filters, hfilters⟩ := hfilters
    exact ⟨⟨page, filters⟩, bind_eq_ok.mpr ⟨hknown, hpage, hfilters⟩⟩

end Binding

/-! ### The handlers of sessions and messages -/

section Handlers

variable (tryParse : List CodePoint → Option DateTimeOffset) (context : EndpointContext)

/-- A page and one enumeration, bound after the names are looked at. -/
theorem bind_enumeration (whitelist : QueryWhitelist) (name : String)
    (members : List (Int × String)) :
    ViewQuery.bind tryParse context.codec ⟨whitelist, [⟨name, .enumeration members⟩], true⟩
        context.request.query =
      (do
        QueryBinding.tryRejectUnknownFilters context.request.query whitelist
        let page ← QueryBinding.tryBindPage context.codec context.request.query whitelist
        let member ← QueryBinding.tryBindEnum members context.request.query name
        return (page, member) : Except (List CodePoint) (KeysetRequest × Option Int)).map
          fun (page, member) =>
            ⟨some page, [(⟨name, .enumeration members⟩, member.map .member)]⟩ := by
  unfold ViewQuery.bind ViewQuery.bindPage
  dsimp only
  cases QueryBinding.tryRejectUnknownFilters context.request.query whitelist with
  | error detail => rfl
  | ok _ =>
      rw [if_pos rfl]
      cases QueryBinding.tryBindPage context.codec context.request.query whitelist with
      | error detail => rfl
      | ok page =>
          rw [List.mapM_cons, List.mapM_nil, QueryBinding.bindFilter]
          dsimp only
          cases QueryBinding.tryBindEnum members context.request.query name with
          | error detail => rfl
          | ok member => rfl

theorem listSessions_bind :
    CustomerViewEndpoints.listSessions.bind tryParse context.codec context.request.query =
      (CustomerViewEndpoints.bindSessions context).map fun (page, state) =>
        ⟨some page, [(sessionStateField, state.map .member)]⟩ :=
  bind_enumeration tryParse context _ _ _

theorem listMessages_bind :
    CustomerViewEndpoints.listMessages.bind tryParse context.codec context.request.query =
      (CustomerViewEndpoints.bindMessages context).map fun (page, senderKind) =>
        ⟨some page, [(⟨"senderKind", .enumeration senderKindMembers⟩,
          senderKind.map .member)]⟩ :=
  bind_enumeration tryParse context _ _ _

end Handlers

/-! ## The routes -/

/-- No two parameters of a route have one name, in whatever case. -/
theorem parameter_unique (route : ViewRoute) :
    ∀ first ∈ route.declared.parameters, ∀ second ∈ route.declared.parameters,
      equalsIgnoreCase (ofString first.name) (ofString second.name) = true →
        first = second := by
  cases route <;> decide +kernel

theorem declared_filterable (route : ViewRoute) :
    route.declared.whitelist.filterable = route.declared.filters.map FilterField.name := by
  cases route <;> rfl

theorem declared_type (route : ViewRoute) : ∀ field ∈ route.declared.filters,
    field.type ∈ [.text, .identifier, .timestamp, .enumeration ClrType.sessionState.members,
      .enumeration ClrType.tenantStatus.members, .enumeration senderKindMembers] := by
  cases route <;> decide +kernel

theorem vocabulary_sessionState : EnumText.Vocabulary ClrType.sessionState.members :=
  ⟨by decide +kernel, by decide +kernel, by decide +kernel, by decide +kernel⟩

theorem vocabulary_tenantStatus : EnumText.Vocabulary ClrType.tenantStatus.members :=
  ⟨by decide +kernel, by decide +kernel, by decide +kernel, by decide +kernel⟩

theorem vocabulary_senderKind : EnumText.Vocabulary senderKindMembers :=
  ⟨by decide +kernel, by decide +kernel, by decide +kernel, by decide +kernel⟩

/-- Every enumeration that is filtered by has names a parser can tell apart. -/
theorem vocabulary_declared {route : ViewRoute} {field : FilterField}
    (hfield : field ∈ route.declared.filters) {members : List (Int × String)}
    (htype : field.type = .enumeration members) : EnumText.Vocabulary members := by
  have hmem := declared_type route field hfield
  rw [htype] at hmem
  simp only [List.mem_cons, reduceCtorEq, FilterType.enumeration.injEq, false_or,
    List.not_mem_nil, or_false] at hmem
  rcases hmem with rfl | rfl | rfl
  · exact vocabulary_sessionState
  · exact vocabulary_tenantStatus
  · exact vocabulary_senderKind

section Routes

variable {tryParse : List CodePoint → Option DateTimeOffset} {codec : CursorCodec}
  {route : ViewRoute} {query : QueryString}

/-- A name that is known is a parameter's. -/
theorem parameter_exists (hknown : route.declared.Knows query)
    {pair : List CodePoint × List CodePoint} (hpair : pair ∈ query) :
    ∃ parameter ∈ route.declared.parameters,
      equalsIgnoreCase pair.1 (ofString parameter.name) = true := by
  obtain ⟨key, hkey, hname⟩ := QueryString.exists_key hpair
  rcases hknown key hkey with hpaging | hfilter
  · simp only [QueryBinding.isPaging, Bool.or_eq_true, beq_iff_eq] at hpaging
    rcases hpaging with (rfl | rfl) | rfl
    · exact ⟨.sort, List.mem_append_left _ (by decide), hname⟩
    · exact ⟨.cursor, List.mem_append_left _ (by decide), hname⟩
    · exact ⟨.limit, List.mem_append_left _ (by decide), hname⟩
  · obtain ⟨name, hallowed, hsame⟩ := List.any_eq_true.mp hfilter
    rw [declared_filterable] at hallowed
    obtain ⟨field, hfield, rfl⟩ := List.mem_map.mp hallowed
    rw [← beq_iff_eq.mp hsame] at hname
    exact ⟨.filter field, List.mem_append_right _ (List.mem_map_of_mem hfield), hname⟩

theorem reversed_iff {lower upper : Option FilterValue} :
    StaffViewEndpoints.reversed lower upper = true ↔
      ∃ first second, lower = some (.timestamp first) ∧ upper = some (.timestamp second) ∧
        second.ticks ≤ first.ticks := by
  unfold StaffViewEndpoints.reversed
  split
  · next first second =>
      rw [decide_eq_true_eq]
      constructor
      · exact fun h => ⟨first, second, rfl, rfl, h⟩
      · rintro ⟨_, _, hfirst, hsecond, h⟩
        injection hfirst with hfirst
        injection hsecond with hsecond
        injection hfirst with hfirst
        injection hsecond with hsecond
        rw [hfirst, hsecond]
        exact h
  · next hother =>
      refine iff_of_false Bool.false_ne_true ?_
      rintro ⟨first, second, hfirst, hsecond, _⟩
      exact hother first second hfirst hsecond

/-- The range an audit search looks at is that of the first values. -/
theorem reversed_of_bind {bound : BoundRequest}
    (h : StaffViewEndpoints.searchAudit.bind tryParse codec query = .ok bound) :
    StaffViewEndpoints.reversed (bound.filters.lookup StaffViewEndpoints.occurredFrom).join
        (bound.filters.lookup StaffViewEndpoints.occurredTo).join = true ↔
      ReversedRange tryParse codec query := by
  have hends : ∀ field ∈ [StaffViewEndpoints.occurredFrom, StaffViewEndpoints.occurredTo],
      QueryParameter.filter field ∈ StaffViewEndpoints.searchAudit.parameters := by decide
  have hfrom := held_of_bind h (hends _ List.mem_cons_self) trivial
  have hto := held_of_bind h (hends _ (List.mem_cons_of_mem _ List.mem_cons_self)) trivial
  rw [reversed_iff, ReversedRange, hfrom, hto]
  simp only [BoundRequest.held, Option.some.injEq, Option.map_eq_some_iff,
    BoundValue.filter.injEq, exists_eq_right]

theorem ViewRoute.bind_eq_ok {bound : BoundRequest} :
    route.bind tryParse codec query = .ok bound ↔
      route.declared.bind tryParse codec query = .ok bound ∧
        ¬ (route = .staffAudit ∧ ReversedRange tryParse codec query) := by
  by_cases haudit : route = .staffAudit
  · subst haudit
    show StaffViewEndpoints.bindAudit tryParse codec query = .ok bound ↔
      StaffViewEndpoints.searchAudit.bind tryParse codec query = .ok bound ∧ _
    unfold StaffViewEndpoints.bindAudit
    rw [Exceptions.bind_eq_ok]
    constructor
    · rintro ⟨inner, hinner, h⟩
      split at h
      · cases h
      · next hforward =>
          injection h with h
          rw [reversed_of_bind hinner] at hforward
          rw [← h]
          exact ⟨hinner, fun hrange => hforward hrange.2⟩
    · rintro ⟨hinner, hforward⟩
      refine ⟨bound, hinner, ?_⟩
      rw [if_neg]
      · rfl
      · rw [reversed_of_bind hinner]
        exact fun hrange => hforward ⟨rfl, hrange⟩
  · have hplain : route.bind tryParse codec query = route.declared.bind tryParse codec query := by
      cases route with
      | staffAudit => exact absurd rfl haudit
      | customerSessions | customerSessionMessages | customerSessionSteps
      | customerSessionFeedback | staffLiveSessions | staffApprovalQueue
      | staffUnexecutedApprovals | staffTenants => rfl
    rw [hplain]
    exact ⟨fun h => ⟨h, fun hrange => haudit hrange.1⟩, fun h => h.1⟩

/-- **A route binds what it does not refuse.** -/
theorem ViewRoute.bind_isOk : (∃ bound, route.bind tryParse codec query = .ok bound) ↔
    ¬ route.Refuses tryParse codec query := by
  simp only [ViewRoute.bind_eq_ok, exists_and_right, Synthia.bind_isOk, ViewRoute.Refuses,
    not_or, not_not, and_assoc]

/-- Nothing is dropped where the values of a query agree. -/
theorem nothingDropped_iff {bound : BoundRequest}
    (h : route.declared.bind tryParse codec query = .ok bound) :
    NothingDropped tryParse codec route.declared query bound ↔
      route.Agrees tryParse codec query := by
  constructor
  · intro hbound pair hpair parameter hparameter hname habsent
    obtain ⟨other, hother, hotherName, hheld⟩ := hbound pair hpair
    have hsame : other = parameter := by
      refine parameter_unique route other hother parameter hparameter ?_
      rw [equalsIgnoreCase_iff] at hname hotherName ⊢
      exact hotherName.symm.trans hname
    subst hsame
    obtain ⟨value, hread, hvalue⟩ := hheld habsent
    have hbinds : route.declared.Binds other := by
      by_contra hunbound
      rw [held_of_not_binds h hunbound] at hvalue
      cases hvalue
    refine ⟨hbinds, value, hread, ?_⟩
    rw [held_of_bind h hother hbinds, hvalue]
  · intro hagrees pair hpair
    obtain ⟨parameter, hparameter, hname⟩ := parameter_exists (bind_eq_ok.mp h).1 hpair
    refine ⟨parameter, hparameter, hname, fun habsent => ?_⟩
    obtain ⟨hbinds, value, hread, hfirst⟩ := hagrees pair hpair parameter hparameter hname habsent
    refine ⟨value, hread, ?_⟩
    rw [held_of_bind h hparameter hbinds] at hfirst
    exact Option.some.inj hfirst

end Routes

/-- **When a filter means what was published.** For every route and query string, that is
where every enumeration is given the name of a member, or a text that is not read as one,
and the route refuses the query or every value of a parameter is read as its first. -/
theorem means_published_iff (tryParse : List CodePoint → Option DateTimeOffset)
    (codec : CursorCodec) (route : ViewRoute) (query : QueryString) :
    MeansPublished tryParse codec route query ↔
      (∀ field ∈ route.declared.filters, PlainFilter query field) ∧
        (route.Refuses tryParse codec query ∨ route.Agrees tryParse codec query) := by
  refine and_congr (forall₂_congr fun field hfield =>
    exactFilter_iff fun members htype => vocabulary_declared hfield htype) ?_
  constructor
  · intro h
    by_cases hrefuses : route.Refuses tryParse codec query
    · exact Or.inl hrefuses
    · obtain ⟨bound, hbound⟩ := ViewRoute.bind_isOk.mpr hrefuses
      exact Or.inr ((nothingDropped_iff (ViewRoute.bind_eq_ok.mp hbound).1).mp (h bound hbound))
  · rintro (hrefuses | hagrees) bound hbound
    · exact absurd hrefuses (ViewRoute.bind_isOk.mp ⟨bound, hbound⟩)
    · exact (nothingDropped_iff (ViewRoute.bind_eq_ok.mp hbound).1).mpr hagrees

/-! ### A list of names -/

namespace SampleFilter

def senders : List CodePoint := ofString "EndUser,Agent"

/-- Two senders asked for, and a third bound. -/
def query : QueryString := [(ofString "senderKind", senders)]

theorem third_member_bound :
    ¬ ∀ (tryParse : List CodePoint → Option DateTimeOffset) (codec : CursorCodec)
      (route : ViewRoute) (query : QueryString), MeansPublished tryParse codec route query := by
  intro h
  have hexact := (h (fun _ => none) Api.Paging.codec .customerSessionMessages query).1
    ⟨"senderKind", .enumeration senderKindMembers⟩ List.mem_cons_self senderKindMembers rfl
    senders (by decide +kernel) (by decide +kernel)
  have hbound : QueryBinding.tryBindEnum senderKindMembers query "senderKind" =
      .ok (some 3) := by decide +kernel
  have hnamed := published_iff.mp (hexact.1.mp ⟨_, hbound⟩)
  revert hnamed
  decide +kernel

end SampleFilter

end Synthia
