import Synthia.Proofs.Admission
import Synthia.Proofs.Paging
import Synthia.ReadModels.CustomerViews

/-!
# What the customer views let through

A page is a matter of the rows its query selects, not of where they stand: every order
is by a key, and a lookup by a key finds one row or none. So a response is settled by
the members of a few filtered views, and those are the caller's own: the filter keeps
to the organisation, and every query keeps to the sessions the caller asked for or to
what hangs below one of them.

That needs the scope to be the caller's organisation. A path that routing takes to a
customer endpoint never resolves to the staff audience, whatever the case of its
letters, because its second segment would have to be two words at once. If it resolves
to no audience, nothing is bound, and the role filter answers before a view is queried.
-/

namespace Synthia

open Text Relational

/-! ## Computations over the views -/

section Computations

variable {α β : Type}

/-- Whatever was seen before, the computation answers this and sees these rows. -/
def Computes (x : Reading α) (answer : α) (rows : List TenantScopedRow) : Prop :=
  ∀ log, Id.run (x.run log) = (answer, log ++ rows)

theorem Computes.pure (a : α) : Computes (Pure.pure a : Reading α) a [] := by
  intro log
  rw [List.append_nil]
  rfl

theorem Computes.bind {x : Reading α} {f : α → Reading β} {a : α} {b : β}
    {rows more : List TenantScopedRow} (hx : Computes x a rows) (hf : Computes (f a) b more) :
    Computes (x >>= f) b (rows ++ more) := by
  intro log
  have hrun : Id.run ((x >>= f).run log) =
      Id.run ((f (Id.run (x.run log)).1).run (Id.run (x.run log)).2) := rfl
  rw [hrun, hx log, hf, List.append_assoc]

/-- The computation answers this, whatever it sees. -/
def Answers (x : Reading α) (answer : α) : Prop := ∃ rows, Computes x answer rows

theorem Answers.pure (a : α) : Answers (Pure.pure a : Reading α) a := ⟨[], Computes.pure a⟩

theorem Answers.bind {x : Reading α} {f : α → Reading β} {a : α} {b : β} (hx : Answers x a)
    (hf : Answers (f a) b) : Answers (x >>= f) b := by
  obtain ⟨rows, hx⟩ := hx
  obtain ⟨more, hf⟩ := hf
  exact ⟨rows ++ more, hx.bind hf⟩

theorem Answers.eq {x : Reading α} {a : α} (h : Answers x a) : x.answer = a := by
  obtain ⟨_, hx⟩ := h
  rw [Reading.answer, hx]

/-- Two computations that answer alike. -/
def SameAnswer (x y : Reading α) : Prop := ∃ a, Answers x a ∧ Answers y a

theorem SameAnswer.of_eq {x y : Reading α} {a b : α} (hx : Answers x a) (hy : Answers y b)
    (h : a = b) : SameAnswer x y :=
  ⟨a, hx, h ▸ hy⟩

theorem SameAnswer.pure (a : α) : SameAnswer (Pure.pure a : Reading α) (Pure.pure a) :=
  ⟨a, Answers.pure a, Answers.pure a⟩

theorem SameAnswer.after {x y : Reading α} {f g : α → Reading β} {a : α} (hx : Answers x a)
    (hy : Answers y a) (h : SameAnswer (f a) (g a)) : SameAnswer (x >>= f) (y >>= g) := by
  obtain ⟨b, hf, hg⟩ := h
  exact ⟨b, hx.bind hf, hy.bind hg⟩

theorem SameAnswer.bind {x y : Reading α} {f g : α → Reading β} (h : SameAnswer x y)
    (hnext : ∀ a, SameAnswer (f a) (g a)) : SameAnswer (x >>= f) (y >>= g) := by
  obtain ⟨a, hx, hy⟩ := h
  exact SameAnswer.after hx hy (hnext a)

theorem SameAnswer.eq {x y : Reading α} (h : SameAnswer x y) : x.answer = y.answer := by
  obtain ⟨a, hx, hy⟩ := h
  rw [hx.eq, hy.eq]

/-- The computation is let see no row. -/
def SeesNothing (x : Reading α) : Prop := ∃ a, Computes x a []

theorem SeesNothing.pure (a : α) : SeesNothing (Pure.pure a : Reading α) := ⟨a, Computes.pure a⟩

theorem SeesNothing.bind {x : Reading α} {f : α → Reading β} (hx : SeesNothing x)
    (hf : ∀ a, SeesNothing (f a)) : SeesNothing (x >>= f) := by
  obtain ⟨a, hx⟩ := hx
  obtain ⟨b, hf⟩ := hf a
  exact ⟨b, hx.bind hf⟩

theorem SeesNothing.eq {x : Reading α} (h : SeesNothing x) : x.rowsSeen = [] := by
  obtain ⟨a, hx⟩ := h
  rw [Reading.rowsSeen, hx]
  rfl

end Computations

/-! ## Pages over the same rows -/

section Pages

variable {Row Item : Type} {store : Database} {key : KeysetSortKey Row} {left right : List Row}

theorem KeysetSortKey.order_congr {direction : KeysetDirection}
    (hleft : (left.map key.identity).Nodup) (hright : (right.map key.identity).Nodup)
    (hsame : ∀ row, row ∈ left ↔ row ∈ right) :
    key.order store left direction = key.order store right direction := by
  rw [KeysetSortKey.order_eq, KeysetSortKey.order_eq]
  exact Keyset.orderBy_congr (KeysetSortKey.nodup_place hleft) (KeysetSortKey.nodup_place hright)
    hsame

/-- The rows behind an anchor are selected one by one. -/
theorem KeysetSortKey.resumed_eq (store : Database) (key : KeysetSortKey Row)
    (direction : KeysetDirection) (anchor : Option KeysetAnchor) :
    (∃ error, ∀ source, key.resumed store source direction anchor = .error error) ∨
      ∃ pred : Row → Bool, ∀ source,
        key.resumed store source direction anchor = .ok (source.filter pred) := by
  cases anchor with
  | none =>
      refine Or.inr ⟨fun _ => true, fun source => ?_⟩
      rw [List.filter_eq_self.mpr fun _ _ => rfl]
      rfl
  | some anchor =>
      simp only [KeysetSortKey.resumed, KeysetSortKey.after]
      cases key.parse anchor.sortValue with
      | error error => exact Or.inl ⟨error, fun _ => rfl⟩
      | ok lastKey =>
          cases KeysetSortKey.compare store key.type direction with
          | error error => exact Or.inl ⟨error, fun _ => rfl⟩
          | ok keyBeyond =>
              cases KeysetSortKey.compare store .guid direction with
              | error error => exact Or.inl ⟨error, fun _ => rfl⟩
              | ok idBeyond => exact Or.inr ⟨_, fun _ => rfl⟩

theorem takeAsync_congr {direction : KeysetDirection} {anchor : Option KeysetAnchor} {limit : Nat}
    (hleft : (left.map key.identity).Nodup) (hright : (right.map key.identity).Nodup)
    (hsame : ∀ row, row ∈ left ↔ row ∈ right) :
    takeAsync store left key direction anchor limit =
      takeAsync store right key direction anchor limit := by
  simp only [takeAsync]
  rcases KeysetSortKey.resumed_eq store key direction anchor with
    ⟨error, hfails⟩ | ⟨pred, hselects⟩
  · rw [hfails left, hfails right]
  · have horder : key.order store (left.filter pred) direction =
        key.order store (right.filter pred) direction := by
      refine KeysetSortKey.order_congr ((List.filter_sublist.map _).nodup hleft)
        ((List.filter_sublist.map _).nodup hright) fun row => ?_
      rw [List.mem_filter, List.mem_filter, hsame row]
    rw [hselects left, hselects right]
    show (if limit < 1 then _ else key.slice limit
      ((key.order store (left.filter pred) direction).take (limit + 1))) = _
    rw [horder]
    rfl

theorem pageOver_congr {sortKeys : List (KeysetSortKey Row)} (identity : Row → Uuid)
    {project : Row → Item} {request : KeysetRequest}
    (hidentity : ∀ key ∈ sortKeys, key.identity = identity)
    (hleft : (left.map identity).Nodup) (hright : (right.map identity).Nodup)
    (hsame : ∀ row, row ∈ left ↔ row ∈ right) :
    pageOver store sortKeys project left request =
      pageOver store sortKeys project right request := by
  simp only [pageOver]
  cases hfound : sortKeys.find? fun sortKey => sortKey.field == request.sort.field with
  | none => rfl
  | some sortKey =>
      have hkey := hidentity sortKey (List.mem_of_find?_eq_some hfound)
      simp only
      rw [takeAsync_congr (by rw [hkey]; exact hleft) (by rw [hkey]; exact hright) hsame]

theorem mem_whereSome {Value : Type} {filter : Option Value} {meets : Value → Row → Bool}
    {query : List Row} {row : Row} :
    row ∈ whereSome filter meets query ↔
      row ∈ query ∧ ∀ value ∈ filter, meets value row = true := by
  cases filter with
  | none => exact ⟨fun h => ⟨h, fun _ hvalue => nomatch hvalue⟩, fun h => h.1⟩
  | some value =>
      rw [whereSome, List.mem_filter]
      exact and_congr_right fun _ =>
        ⟨fun h _ hvalue => Option.some.inj hvalue ▸ h, fun h => h value rfl⟩

theorem whereSome_sublist {Value : Type} (filter : Option Value) (meets : Value → Row → Bool)
    (query : List Row) : (whereSome filter meets query).Sublist query := by
  cases filter with
  | none => exact List.Sublist.refl query
  | some value => exact List.filter_sublist

end Pages

/-! ## What two databases agree on -/

/-- A session of an organisation that somebody requested there. -/
def ReadDatabase.Requested (database : ReadDatabase) (tenantId : Uuid) (requester : PrincipalId)
    (sessionId : Uuid) : Prop :=
  ∃ row ∈ database.sessionSummaries.rows, row.tenantId = tenantId ∧
    row.requesterOid = requester.value ∧ row.sessionId = sessionId

/-- The same rows of an organisation, of the sessions somebody requested there. -/
structure AgreeOn (tenantId : Uuid) (requester : PrincipalId) (left right : ReadDatabase) :
    Prop where
  summaries : ∀ row : PublishedViews.SessionSummaryRow, row.tenantId = tenantId →
    row.requesterOid = requester.value →
      (row ∈ left.sessionSummaries.rows ↔ row ∈ right.sessionSummaries.rows)
  messages : ∀ row : PublishedViews.SessionMessageRow, row.tenantId = tenantId →
    left.Requested tenantId requester row.sessionId →
      (row ∈ left.sessionMessages.rows ↔ row ∈ right.sessionMessages.rows)
  steps : ∀ row : PublishedViews.SessionStepRow, row.tenantId = tenantId →
    left.Requested tenantId requester row.sessionId →
      (row ∈ left.sessionSteps.rows ↔ row ∈ right.sessionSteps.rows)
  feedback : ∀ row : PublishedViews.MessageFeedbackRow, row.tenantId = tenantId →
    left.Requested tenantId requester row.sessionId →
      (row ∈ left.messageFeedback.rows ↔ row ∈ right.messageFeedback.rows)

/-- The same registry row of the caller's organisation, and the same rows there of the
sessions the caller requested. -/
structure CallerAgrees (request : HttpRequest) (left right : ReadDatabase) : Prop where
  registry : ∀ tid, Guid.tryParse request.headers.tenantId = some tid →
    TenantRegistry.findAsync left.tenants ⟨tid⟩ = TenantRegistry.findAsync right.tenants ⟨tid⟩
  rows : ∀ tid oid row, Guid.tryParse request.headers.tenantId = some tid →
    Guid.tryParse request.headers.principalId = some oid →
      TenantRegistry.findAsync left.tenants ⟨tid⟩ = some row →
        AgreeOn row.tenantId ⟨oid⟩ left right

/-! ## The read models -/

/-- The rows of a view that pass the filter. -/
def SynthiaReadContext.admitted {Row : Type} (context : SynthiaReadContext) (rows : List Row)
    (tenantId : Row → Uuid) : List Row :=
  rows.filter (ReadModelQueryFilter.build context.hasOrganisationScope context.currentTenantId
    context.isOperatorWide tenantId)

theorem answers_tenantScopedView {Row : Type} {context : SynthiaReadContext} {rows : List Row}
    {tenantId : Row → Uuid} {seen : Row → TenantScopedRow} :
    Answers (context.tenantScopedView rows tenantId seen) (context.admitted rows tenantId) :=
  ⟨_, fun _ => rfl⟩

section OneOrganisation

variable {organisation : TenantContext} {requester : PrincipalId} {sessionId : SessionId}
  {store : Database} {left right database : ReadDatabase}

/-- The context of a request of one organisation. -/
abbrev within (database : ReadDatabase) (organisation : TenantContext) : SynthiaReadContext :=
  ⟨database, .singleOrganisation organisation⟩

theorem mem_admitted {Row : Type} {rows : List Row} {tenantId : Row → Uuid} {row : Row} :
    row ∈ (within database organisation).admitted rows tenantId ↔
      row ∈ rows ∧ tenantId row = organisation.tenantId.value := by
  rw [SynthiaReadContext.admitted, List.mem_filter]
  refine and_congr_right fun _ => ?_
  show (true && tenantId row == organisation.tenantId.value || false) = true ↔ _
  rw [Bool.or_false, Bool.true_and, beq_iff_eq]

theorem nodup_admitted {Row : Type} {context : SynthiaReadContext} {rows : List Row}
    {tenantId identity : Row → Uuid} (h : (rows.map identity).Nodup) :
    ((context.admitted rows tenantId).map identity).Nodup :=
  (List.filter_sublist.map identity).nodup h

/-- The identifiers the ownership subquery finds. -/
def ownOf (database : ReadDatabase) (organisation : TenantContext) (requester : PrincipalId)
    (sessionId : SessionId) : List Uuid :=
  (((within database organisation).admitted database.sessionSummaries.rows (·.tenantId)).filter
    (SessionReadModel.ownSession requester sessionId)).map (·.sessionId)

theorem answers_ownSessions :
    Answers (SessionReadModel.ownSessions (within database organisation) requester sessionId)
      (ownOf database organisation requester sessionId) :=
  answers_tenantScopedView.bind (Answers.pure _)

theorem ownSession_iff {row : PublishedViews.SessionSummaryRow} :
    SessionReadModel.ownSession requester sessionId row = true ↔
      row.sessionId = sessionId.value ∧ row.requesterOid = requester.value := by
  rw [SessionReadModel.ownSession, Bool.and_eq_true, beq_iff_eq, beq_iff_eq]

theorem mem_ownOf {id : Uuid} :
    id ∈ ownOf database organisation requester sessionId ↔
      id = sessionId.value ∧
        database.Requested organisation.tenantId.value requester id := by
  rw [ownOf, List.mem_map]
  constructor
  · rintro ⟨row, hrow, rfl⟩
    obtain ⟨hadmitted, hown⟩ := List.mem_filter.mp hrow
    obtain ⟨hmem, htenant⟩ := mem_admitted.mp hadmitted
    obtain ⟨hsession, hrequester⟩ := ownSession_iff.mp hown
    exact ⟨hsession, row, hmem, htenant, hrequester, rfl⟩
  · rintro ⟨hid, row, hmem, htenant, hrequester, rfl⟩
    exact ⟨row, List.mem_filter.mpr ⟨mem_admitted.mpr ⟨hmem, htenant⟩,
      ownSession_iff.mpr ⟨hid, hrequester⟩⟩, rfl⟩

variable (hagree : AgreeOn organisation.tenantId.value requester left right)
include hagree

theorem requested_iff {id : Uuid} :
    left.Requested organisation.tenantId.value requester id ↔
      right.Requested organisation.tenantId.value requester id := by
  constructor
  · rintro ⟨row, hrow, htenant, hrequester, hid⟩
    exact ⟨row, (hagree.summaries row htenant hrequester).mp hrow, htenant, hrequester, hid⟩
  · rintro ⟨row, hrow, htenant, hrequester, hid⟩
    exact ⟨row, (hagree.summaries row htenant hrequester).mpr hrow, htenant, hrequester, hid⟩

/-- What a nested read selects, in either database. -/
theorem mem_nested {Row : Type} {rows others : List Row} {tenantId sessionOf : Row → Uuid}
    (h : ∀ row, tenantId row = organisation.tenantId.value →
      left.Requested organisation.tenantId.value requester (sessionOf row) →
        (row ∈ rows ↔ row ∈ others)) (row : Row) :
    row ∈ ((within left organisation).admitted rows tenantId).filter (fun row =>
        (ownOf left organisation requester sessionId).contains (sessionOf row)) ↔
      row ∈ ((within right organisation).admitted others tenantId).filter (fun row =>
        (ownOf right organisation requester sessionId).contains (sessionOf row)) := by
  rw [List.mem_filter, List.mem_filter, mem_admitted, mem_admitted, List.contains_iff_mem,
    List.contains_iff_mem, mem_ownOf, mem_ownOf, requested_iff hagree]
  constructor
  · rintro ⟨⟨hrow, htenant⟩, hid, hrequested⟩
    exact ⟨⟨(h row htenant ((requested_iff hagree).mpr hrequested)).mp hrow, htenant⟩, hid,
      hrequested⟩
  · rintro ⟨⟨hrow, htenant⟩, hid, hrequested⟩
    exact ⟨⟨(h row htenant ((requested_iff hagree).mpr hrequested)).mpr hrow, htenant⟩, hid,
      hrequested⟩

theorem listAsync_same (state : Option Int) (request : KeysetRequest) :
    SameAnswer (SessionReadModel.listAsync store (within left organisation) requester state request)
      (SessionReadModel.listAsync store (within right organisation) requester state request) := by
  refine SameAnswer.of_eq (answers_tenantScopedView.bind (Answers.pure _))
    (answers_tenantScopedView.bind (Answers.pure _)) ?_
  refine pageOver_congr (·.sessionId) ?_
    ((((whereSome_sublist _ _ _).trans List.filter_sublist).map _).nodup
      (nodup_admitted left.sessionSummaries.unique))
    ((((whereSome_sublist _ _ _).trans List.filter_sublist).map _).nodup
      (nodup_admitted right.sessionSummaries.unique)) fun row => ?_
  · intro key hkey
    rcases List.mem_cons.mp hkey with rfl | hkey
    · rfl
    rcases List.mem_cons.mp hkey with rfl | hkey
    · rfl
    · rw [List.mem_singleton.mp hkey]
  · rw [mem_whereSome, mem_whereSome, List.mem_filter, List.mem_filter, mem_admitted,
      mem_admitted, beq_iff_eq]
    refine and_congr_left fun _ => and_congr_left fun hrequester => and_congr_left fun htenant => ?_
    exact hagree.summaries row htenant hrequester

theorem findAsync_same :
    SameAnswer (SessionReadModel.findAsync (within left organisation) requester sessionId)
      (SessionReadModel.findAsync (within right organisation) requester sessionId) := by
  refine SameAnswer.of_eq (answers_tenantScopedView.bind (Answers.pure _))
    (answers_tenantScopedView.bind (Answers.pure _)) (congrArg (Option.map _) ?_)
  refine find?_congr_of_pinned ?_ ?_
  · intro row hown
    rw [mem_admitted, mem_admitted]
    exact and_congr_left fun htenant =>
      hagree.summaries row htenant (ownSession_iff.mp hown).2
  · intro a ha b hb howna hownb
    exact left.sessionSummaries.eq_of_key (mem_admitted.mp ha).1 (mem_admitted.mp hb).1
      ((ownSession_iff.mp howna).1.trans (ownSession_iff.mp hownb).1.symm)

theorem listMessagesAsync_same (senderKind : Option Int) (request : KeysetRequest) :
    SameAnswer
      (SessionReadModel.listMessagesAsync store (within left organisation) requester sessionId
        senderKind request)
      (SessionReadModel.listMessagesAsync store (within right organisation) requester sessionId
        senderKind request) := by
  refine SameAnswer.of_eq
    (answers_ownSessions.bind (answers_tenantScopedView.bind (Answers.pure _)))
    (answers_ownSessions.bind (answers_tenantScopedView.bind (Answers.pure _))) ?_
  refine pageOver_congr (·.messageId) ?_
    ((((whereSome_sublist _ _ _).trans List.filter_sublist).map _).nodup
      (nodup_admitted left.sessionMessages.unique))
    ((((whereSome_sublist _ _ _).trans List.filter_sublist).map _).nodup
      (nodup_admitted right.sessionMessages.unique)) fun row => ?_
  · intro key hkey
    rw [List.mem_singleton.mp hkey]
  · rw [mem_whereSome, mem_whereSome]
    exact and_congr_left fun _ => mem_nested hagree hagree.messages row

/-- A trail ordered by an instant and then by a key. -/
theorem trail_same {Row : Type} {rows others : List Row} {tenantId sessionOf identity : Row → Uuid}
    {instant : Row → DateTimeOffset} (hrows : (rows.map identity).Nodup)
    (hothers : (others.map identity).Nodup)
    (h : ∀ row, tenantId row = organisation.tenantId.value →
      left.Requested organisation.tenantId.value requester (sessionOf row) →
        (row ∈ rows ↔ row ∈ others)) :
    orderBy (fun row => toLex ((instant row).ticks, (identity row).toNat))
        (((within left organisation).admitted rows tenantId).filter fun row =>
          (ownOf left organisation requester sessionId).contains (sessionOf row)) =
      orderBy (fun row => toLex ((instant row).ticks, (identity row).toNat))
        (((within right organisation).admitted others tenantId).filter fun row =>
          (ownOf right organisation requester sessionId).contains (sessionOf row)) := by
  have hkeys : ∀ {list : List Row}, (list.map identity).Nodup →
      (list.map fun row => toLex ((instant row).ticks, (identity row).toNat)).Nodup := by
    intro list hlist
    rw [List.Nodup, List.pairwise_map] at hlist ⊢
    refine hlist.imp fun hne heq => hne ?_
    exact BitVec.eq_of_toNat_eq (Prod.mk.inj (toLex.injective heq)).2
  exact Keyset.orderBy_congr
    (hkeys ((List.filter_sublist.map _).nodup (nodup_admitted hrows)))
    (hkeys ((List.filter_sublist.map _).nodup (nodup_admitted hothers)))
    (mem_nested hagree h)

theorem listStepsAsync_same :
    SameAnswer (SessionReadModel.listStepsAsync (within left organisation) requester sessionId)
      (SessionReadModel.listStepsAsync (within right organisation) requester sessionId) :=
  SameAnswer.of_eq (answers_ownSessions.bind (answers_tenantScopedView.bind (Answers.pure _)))
    (answers_ownSessions.bind (answers_tenantScopedView.bind (Answers.pure _)))
    (congrArg (List.map _) (trail_same hagree left.sessionSteps.unique right.sessionSteps.unique
      hagree.steps))

theorem listForSessionAsync_same :
    SameAnswer
      (FeedbackReadModel.listForSessionAsync (within left organisation) requester sessionId)
      (FeedbackReadModel.listForSessionAsync (within right organisation) requester sessionId) :=
  SameAnswer.of_eq (answers_ownSessions.bind (answers_tenantScopedView.bind (Answers.pure _)))
    (answers_ownSessions.bind (answers_tenantScopedView.bind (Answers.pure _)))
    (congrArg (List.map _) (trail_same hagree left.messageFeedback.unique
      right.messageFeedback.unique hagree.feedback))

end OneOrganisation

/-! ## The endpoints -/

namespace CustomerViewEndpoints

/-- What an endpoint answers a caller is settled by what is the caller's. -/
def Isolated (endpoint : ViewEndpoint) : Prop :=
  ∀ store codec request (organisation : TenantContext) principal left right,
    AgreeOn organisation.tenantId.value principal.identity.principalId left right →
      SameAnswer (endpoint.handler ⟨store, codec, request, within left organisation⟩ principal)
        (endpoint.handler ⟨store, codec, request, within right organisation⟩ principal)

theorem bound_same {α : Type} {left right : EndpointContext}
    (hrequest : left.request = right.request) (binding : Except (List CodePoint) α)
    {f g : α → Reading ViewResponse} (h : ∀ value, SameAnswer (f value) (g value)) :
    SameAnswer (bound left binding f) (bound right binding g) := by
  cases binding with
  | error detail =>
      simp only [bound, hrequest]
      exact SameAnswer.pure _
  | ok value => exact h value

theorem isolated_listSessions : Isolated (acceptsRolesOfCustomer listSessionsAsync) := by
  intro store codec request organisation principal left right hagree
  exact bound_same rfl _ fun ⟨page, state⟩ =>
    (listAsync_same hagree state page).bind fun _ => SameAnswer.pure _

theorem isolated_getSession (sessionId : SessionId) :
    Isolated (acceptsRolesOfCustomer (getSessionAsync sessionId)) := by
  intro store codec request organisation principal left right hagree
  refine (findAsync_same hagree).bind fun found => ?_
  cases found with
  | none => exact SameAnswer.pure _
  | some session => exact SameAnswer.pure _

theorem isolated_listMessages (sessionId : SessionId) :
    Isolated (acceptsRolesOfCustomer (listMessagesAsync sessionId)) := by
  intro store codec request organisation principal left right hagree
  exact bound_same rfl _ fun ⟨page, senderKind⟩ =>
    (listMessagesAsync_same hagree senderKind page).bind fun _ => SameAnswer.pure _

theorem isolated_listSteps (sessionId : SessionId) :
    Isolated (acceptsRolesOfCustomer (listStepsAsync sessionId)) := by
  intro store codec request organisation principal left right hagree
  exact bound_same rfl _ fun _ => (listStepsAsync_same hagree).bind fun _ => SameAnswer.pure _

theorem isolated_listFeedback (sessionId : SessionId) :
    Isolated (acceptsRolesOfCustomer (listFeedbackAsync sessionId)) := by
  intro store codec request organisation principal left right hagree
  exact bound_same rfl _ fun _ =>
    (listForSessionAsync_same hagree).bind fun _ => SameAnswer.pure _

/-! ### A scope nothing was bound in -/

/-- An endpoint that is let see nothing where no organisation is in scope. -/
def Denied (endpoint : ViewEndpoint) : Prop :=
  ∀ store codec request database principal,
    SeesNothing (endpoint.handler ⟨store, codec, request, ⟨database, .none⟩⟩ principal)

/-- Without an organisation the filter matches no row, whatever the rows carry. -/
theorem view_denied {Row : Type} {database : ReadDatabase} {rows : List Row}
    {tenantId : Row → Uuid} {seen : Row → TenantScopedRow} :
    SeesNothing (SynthiaReadContext.tenantScopedView ⟨database, .none⟩ rows tenantId seen) := by
  have hnone : SynthiaReadContext.admitted ⟨database, .none⟩ rows tenantId = [] :=
    List.filter_eq_nil_iff.mpr fun _ _ => Bool.false_ne_true
  refine ⟨[], fun log => ?_⟩
  show (SynthiaReadContext.admitted ⟨database, .none⟩ rows tenantId,
    log ++ (SynthiaReadContext.admitted ⟨database, .none⟩ rows tenantId).map seen) = _
  rw [hnone]
  rfl

theorem bound_denied {α : Type} {context : EndpointContext}
    {binding : Except (List CodePoint) α} {f : α → Reading ViewResponse}
    (h : ∀ value, SeesNothing (f value)) : SeesNothing (bound context binding f) := by
  cases binding with
  | error detail => exact SeesNothing.pure _
  | ok value => exact h value

theorem own_denied {database : ReadDatabase} {requester : PrincipalId} {sessionId : SessionId} :
    SeesNothing (SessionReadModel.ownSessions ⟨database, .none⟩ requester sessionId) :=
  view_denied.bind fun _ => SeesNothing.pure _

theorem denied_listSessions : Denied (acceptsRolesOfCustomer listSessionsAsync) := by
  intro store codec request database principal
  exact bound_denied fun _ =>
    (view_denied.bind fun _ => SeesNothing.pure _).bind fun _ => SeesNothing.pure _

theorem denied_getSession (sessionId : SessionId) :
    Denied (acceptsRolesOfCustomer (getSessionAsync sessionId)) := by
  intro store codec request database principal
  refine (view_denied.bind fun _ => SeesNothing.pure _).bind fun found => ?_
  cases found with
  | none => exact SeesNothing.pure _
  | some session => exact SeesNothing.pure _

theorem denied_listMessages (sessionId : SessionId) :
    Denied (acceptsRolesOfCustomer (listMessagesAsync sessionId)) := by
  intro store codec request database principal
  exact bound_denied fun _ =>
    (own_denied.bind fun _ => view_denied.bind fun _ => SeesNothing.pure _).bind
      fun _ => SeesNothing.pure _

theorem denied_listSteps (sessionId : SessionId) :
    Denied (acceptsRolesOfCustomer (listStepsAsync sessionId)) := by
  intro store codec request database principal
  exact bound_denied fun _ =>
    (own_denied.bind fun _ => view_denied.bind fun _ => SeesNothing.pure _).bind
      fun _ => SeesNothing.pure _

theorem denied_listFeedback (sessionId : SessionId) :
    Denied (acceptsRolesOfCustomer (listFeedbackAsync sessionId)) := by
  intro store codec request database principal
  exact bound_denied fun _ =>
    (own_denied.bind fun _ => view_denied.bind fun _ => SeesNothing.pure _).bind
      fun _ => SeesNothing.pure _

/-! ### Routing -/

/-- What holds of the five endpoints holds of every customer endpoint there is. -/
theorem of_route {property : ViewEndpoint → Prop} {path : List CodePoint}
    {endpoint : ViewEndpoint} (h : route path = some endpoint)
    (hsessions : property (acceptsRolesOfCustomer listSessionsAsync))
    (hsession : ∀ id, property (acceptsRolesOfCustomer (getSessionAsync id)))
    (hmessages : ∀ id, property (acceptsRolesOfCustomer (listMessagesAsync id)))
    (hsteps : ∀ id, property (acceptsRolesOfCustomer (listStepsAsync id)))
    (hfeedback : ∀ id, property (acceptsRolesOfCustomer (listFeedbackAsync id))) :
    property endpoint := by
  have hleaf : ∀ {id rest}, ofSession id rest = some endpoint → property endpoint := by
    intro id rest hleaf
    match rest with
    | [] => exact Option.some.inj hleaf ▸ hsession id
    | [leaf] =>
        simp only [ofSession] at hleaf
        split at hleaf
        · exact Option.some.inj hleaf ▸ hmessages id
        · split at hleaf
          · exact Option.some.inj hleaf ▸ hsteps id
          · split at hleaf
            · exact Option.some.inj hleaf ▸ hfeedback id
            · cases hleaf
    | _ :: _ :: _ => cases hleaf
  rw [route] at h
  split at h
  · next rest _ =>
      split at h
      · cases rest with
        | nil => exact Option.some.inj h ▸ hsessions
        | cons id rest =>
            obtain ⟨_, _, hfound⟩ := Option.bind_eq_some_iff.mp h
            exact hleaf hfound
      · cases h
  · cases h

theorem isolated_of_route {path : List CodePoint} {endpoint : ViewEndpoint}
    (h : route path = some endpoint) : Isolated endpoint :=
  of_route h isolated_listSessions isolated_getSession isolated_listMessages isolated_listSteps
    isolated_listFeedback

theorem denied_of_route {path : List CodePoint} {endpoint : ViewEndpoint}
    (h : route path = some endpoint) : Denied endpoint :=
  of_route h denied_listSessions denied_getSession denied_listMessages denied_listSteps
    denied_listFeedback

/-- The first two segments of a path, where two slashes end them. -/
theorem segments_two {first second : List CodePoint} (rest : List CodePoint)
    (hfirst : (0x2F : CodePoint) ∉ first) (hsecond : (0x2F : CodePoint) ∉ second) :
    ∃ more, segments (0x2F :: (first ++ 0x2F :: (second ++ 0x2F :: rest))) =
      first :: second :: more := by
  have hparts : (first ++ 0x2F :: (second ++ 0x2F :: rest)).splitOn 0x2F =
      first :: second :: rest.splitOn 0x2F := by
    rw [List.splitOn_append_cons_self, List.splitOn_eq_singleton hfirst,
      List.splitOn_append_cons_self, List.splitOn_eq_singleton hsecond]
    rfl
  simp only [segments, List.drop_succ_cons, List.drop_zero, hparts]
  split
  · refine ⟨(rest.splitOn 0x2F).dropLast, ?_⟩
    rw [List.dropLast_cons_of_ne_nil (List.cons_ne_nil _ _),
      List.dropLast_cons_of_ne_nil (List.splitOn_ne_nil _ _)]
  · exact ⟨_, rfl⟩

/-- No path of the staff audience is routed to a customer endpoint. -/
theorem not_staff_of_route {path : List CodePoint} {endpoint : ViewEndpoint}
    (h : route path = some endpoint) : AudienceRouting.tryResolve path ≠ some .staff := by
  intro hstaff
  have hprefix : startsWithSegments path AudienceRouting.staffPrefix = true := by
    rw [AudienceRouting.tryResolve] at hstaff
    split at hstaff
    · cases hstaff
    · split at hstaff
      · next hstarts => exact hstarts
      · split at hstaff
        · cases hstaff
        · cases hstaff
  rw [startsWithSegments, Bool.and_eq_true] at hprefix
  obtain ⟨rest, rfl⟩ := List.isPrefixOf_iff_prefix.mp hprefix.1
  have hsplit : AudienceRouting.staffPrefix ++ rest =
      0x2F :: (ofString "api" ++ 0x2F :: (ofString "staff" ++ 0x2F :: (ofString "v1" ++ rest))) :=
    rfl
  obtain ⟨more, hsegments⟩ := @segments_two (ofString "api") (ofString "staff")
    (ofString "v1" ++ rest) (by decide) (by decide)
  rw [route, hsplit, hsegments] at h
  split at h
  · next heq =>
      obtain ⟨_, hrest⟩ := List.cons.inj heq
      obtain ⟨rfl, _⟩ := List.cons.inj hrest
      rw [if_neg] at h
      · cases h
      · rw [show isLiteral (ofString "staff") "customer" = false by decide, Bool.and_false,
          Bool.false_and, Bool.false_and, Bool.false_and]
        exact Bool.false_ne_true
  · cases h

end CustomerViewEndpoints

/-! ## The pipeline -/

section Pipeline

variable {request : HttpRequest} {database : ReadDatabase} {audience : Audience}
  {store : Database} {codec : CursorCodec} {endpoint : ViewEndpoint}

theorem answers_tryBindScopeAsync (principal : AuthenticatedPrincipal) :
    Answers (tryBindScopeAsync database principal) (tryBindScope database.tenants principal) := by
  simp only [tryBindScopeAsync]
  split
  · exact Answers.bind ⟨_, fun _ => rfl⟩ (Answers.pure _)
  · exact Answers.bind (Answers.pure _) (Answers.pure _)

namespace IdentityContextMiddleware

theorem computes_unresolved (database : ReadDatabase)
    (h : AudienceRouting.tryResolve request.path = none) :
    Computes (invokeAsync database request) (.ok .unbound) [] := by
  rw [invokeAsync, h]
  exact Computes.pure _

/-- On an audience the stage refuses, whatever the database, or has a principal and lets
through exactly the scopes that can be bound for it. -/
theorem invokeAsync_cases (h : AudienceRouting.tryResolve request.path = some audience) :
    (∃ response, ∀ database, Answers (invokeAsync database request) (.error response)) ∨
      ∃ principal refusal, PrincipalFactory.tryCreate request.headers audience = .ok principal ∧
        ∀ database, Answers (invokeAsync database request)
          ((tryBindScope database.tenants principal).elim (.error refusal) fun tenant =>
            .ok ⟨tenant, some principal⟩) := by
  simp only [invokeAsync, h]
  cases ForbiddenParameters.tryFind request.query audience with
  | some offending => exact Or.inl ⟨_, fun _ => Answers.pure _⟩
  | none =>
      cases hcreate : PrincipalFactory.tryCreate request.headers audience with
      | error _ => exact Or.inl ⟨_, fun _ => Answers.pure _⟩
      | ok principal =>
          refine Or.inr ⟨principal, Problems.forbidden request
            "This organisation is not registered with the platform.", rfl, fun database => ?_⟩
          refine (answers_tryBindScopeAsync principal).bind ?_
          cases tryBindScope database.tenants principal with
          | none => exact Answers.pure _
          | some tenant => exact Answers.pure _

end IdentityContextMiddleware

theorem tryBindScope_found {principal : AuthenticatedPrincipal} {tenants : Registry}
    (h : principal.audience ≠ .staff) :
    tryBindScope tenants principal =
      (TenantRegistry.findAsync tenants principal.identity.tenantId).map fun row =>
        .singleOrganisation ⟨⟨row.tenantId⟩, ⟨row.entraTid⟩, row.status, .endUserIdentity⟩ :=
  tryBindScope_of_ne h

theorem audience_of_tryCreate {principal : AuthenticatedPrincipal}
    (h : PrincipalFactory.tryCreate request.headers audience = .ok principal) :
    principal.audience = audience ∧
      Guid.tryParse request.headers.tenantId = some principal.identity.tenantId.value ∧
        Guid.tryParse request.headers.principalId = some principal.identity.principalId.value := by
  obtain ⟨tid, oid, htid, hoid, roles, _, _, _, rfl⟩ := PrincipalFactory.tryCreate_eq_ok.mp h
  exact ⟨rfl, htid, hoid⟩

/-- Behind the filter, an isolated endpoint still answers what is the caller's. -/
theorem roleFilter_same {principal : AuthenticatedPrincipal} {organisation : TenantContext}
    {left right : ReadDatabase} (hendpoint : CustomerViewEndpoints.Isolated endpoint)
    (hagree : AgreeOn organisation.tenantId.value principal.identity.principalId left right) :
    SameAnswer
      (RoleFilter.invokeAsync endpoint ⟨store, codec, request, within left organisation⟩
        (some principal))
      (RoleFilter.invokeAsync endpoint ⟨store, codec, request, within right organisation⟩
        (some principal)) := by
  simp only [RoleFilter.invokeAsync]
  split
  · exact hendpoint store codec request organisation principal left right hagree
  · exact SameAnswer.pure _

theorem serve_same {left right : ReadDatabase}
    (hroute : CustomerViewEndpoints.route request.path = some endpoint)
    (hagree : CallerAgrees request left right) :
    SameAnswer (serve store codec left endpoint request)
      (serve store codec right endpoint request) := by
  cases haudience : AudienceRouting.tryResolve request.path with
  | none =>
      exact SameAnswer.after ⟨_, IdentityContextMiddleware.computes_unresolved _ haudience⟩
        ⟨_, IdentityContextMiddleware.computes_unresolved _ haudience⟩ (SameAnswer.pure _)
  | some audience =>
      rcases IdentityContextMiddleware.invokeAsync_cases haudience with
        ⟨response, hrefused⟩ | ⟨principal, refusal, hcreate, hanswers⟩
      · exact SameAnswer.after (hrefused left) (hrefused right) (SameAnswer.pure _)
      · obtain ⟨haud, htid, hoid⟩ := audience_of_tryCreate hcreate
        have hstaff : principal.audience ≠ .staff := by
          intro hstaff
          rw [← haud, hstaff] at haudience
          exact CustomerViewEndpoints.not_staff_of_route hroute haudience
        have hleft := hanswers left
        have hright := hanswers right
        rw [tryBindScope_found hstaff] at hleft hright
        rw [← hagree.registry _ htid] at hright
        cases hrow : TenantRegistry.findAsync left.tenants principal.identity.tenantId with
        | none =>
            rw [hrow] at hleft hright
            exact SameAnswer.after hleft hright (SameAnswer.pure _)
        | some row =>
            rw [hrow] at hleft hright
            exact SameAnswer.after hleft hright
              (roleFilter_same (CustomerViewEndpoints.isolated_of_route hroute)
                (hagree.rows _ _ row htid hoid hrow))

/-- A scope the identity stage lets through is the unbound one, off every audience and
without a read, or it has a principal, and an organisation off the staff audience. -/
theorem reached_cases {scope : RequestScope}
    (h : (IdentityContextMiddleware.invokeAsync database request).answer = .ok scope) :
    (scope = .unbound ∧
        Computes (IdentityContextMiddleware.invokeAsync database request) (.ok .unbound) []) ∨
      scope.principal ≠ none ∧
        (AudienceRouting.tryResolve request.path ≠ some .staff →
          scope.tenant.organisation ≠ none) := by
  cases haudience : AudienceRouting.tryResolve request.path with
  | none =>
      have hunbound := IdentityContextMiddleware.computes_unresolved database haudience
      rw [Answers.eq ⟨_, hunbound⟩] at h
      exact Or.inl ⟨(Except.ok.inj h).symm, hunbound⟩
  | some audience =>
      rcases IdentityContextMiddleware.invokeAsync_cases haudience with
        ⟨response, hrefused⟩ | ⟨principal, refusal, hcreate, hanswers⟩
      · rw [(hrefused database).eq] at h
        cases h
      · obtain ⟨haud, _, _⟩ := audience_of_tryCreate hcreate
        rw [(hanswers database).eq] at h
        cases hscope : tryBindScope database.tenants principal with
        | none =>
            rw [hscope] at h
            cases h
        | some tenant =>
            rw [hscope] at h
            obtain rfl := Except.ok.inj h
            refine Or.inr ⟨Option.some_ne_none principal, fun hstaff => ?_⟩
            rw [tryBindScope_found (by rw [haud]; exact fun heq => hstaff (congrArg some heq))]
              at hscope
            obtain ⟨row, _, rfl⟩ := Option.map_eq_some_iff.mp hscope
            exact Option.some_ne_none _

theorem serve_unbound
    (h : Computes (IdentityContextMiddleware.invokeAsync database request) (.ok .unbound) []) :
    SeesNothing (serve store codec database endpoint request) :=
  ⟨_, h.bind (Computes.pure (Problems.unauthenticated request))⟩

/-- The stages behind the identity stage, in any scope that lacks a principal or has nothing
bound as its organisation. -/
theorem roleFilter_denied {scope : RequestScope}
    (hroute : CustomerViewEndpoints.route request.path = some endpoint)
    (hunset : scope.principal = none ∨ scope.tenant = .none) :
    SeesNothing (RoleFilter.invokeAsync endpoint
      ⟨store, codec, request, ⟨database, scope.tenant⟩⟩ scope.principal) := by
  cases hprincipal : scope.principal with
  | none => exact SeesNothing.pure _
  | some principal =>
      rcases hunset with hnone | hnone
      · rw [hprincipal] at hnone
        cases hnone
      · rw [hnone]
        simp only [RoleFilter.invokeAsync]
        split
        · exact CustomerViewEndpoints.denied_of_route hroute store codec request database principal
        · exact SeesNothing.pure _

end Pipeline

/-- Two databases that agree on the registry row of the caller's organisation, and on its
rows of the sessions the caller requested there, give the same response at every customer
endpoint. A request that reaches an endpoint with no principal bound, or a customer endpoint
with no organisation bound, is let see no row; nor would the stages behind the identity stage
let it, were they run in any scope without one of the two. -/
theorem customer_reads_isolated (store : Database) (codec : CursorCodec) (request : HttpRequest) :
    (∀ endpoint, CustomerViewEndpoints.route request.path = some endpoint →
      ∀ left right, CallerAgrees request left right →
        (serve store codec left endpoint request).answer =
          (serve store codec right endpoint request).answer) ∧
      (∀ database endpoint scope,
        (IdentityContextMiddleware.invokeAsync database request).answer = .ok scope →
          (scope.principal = none ∨
            CustomerViewEndpoints.route request.path = some endpoint ∧
              scope.tenant.organisation = none) →
            (serve store codec database endpoint request).rowsSeen = []) ∧
      ∀ database endpoint (scope : RequestScope),
        CustomerViewEndpoints.route request.path = some endpoint →
          scope.principal = none ∨ scope.tenant = .none →
            (RoleFilter.invokeAsync endpoint ⟨store, codec, request, ⟨database, scope.tenant⟩⟩
              scope.principal).rowsSeen = [] := by
  refine ⟨fun endpoint hroute left right hagree => (serve_same hroute hagree).eq, ?_,
    fun database endpoint scope hroute hunset => (roleFilter_denied hroute hunset).eq⟩
  intro database endpoint scope hreached hunset
  rcases reached_cases hreached with ⟨_, hunbound⟩ | ⟨hprincipal, horganisation⟩
  · exact (serve_unbound hunbound).eq
  · rcases hunset with hnone | ⟨hroute, hnone⟩
    · exact absurd hnone hprincipal
    · exact absurd hnone (horganisation (CustomerViewEndpoints.not_staff_of_route hroute))

namespace SampleCaller

def neighbour : PublishedViews.SessionSummaryRow :=
  { sampleSummary 5 .resolving with tenantId := 7, requesterOid := 9 }

def own : PublishedViews.SessionSummaryRow :=
  { sampleSummary 4 .resolving with tenantId := 7, requesterOid := 2 }

def database (summaries : List PublishedViews.SessionSummaryRow)
    (h : (summaries.map fun row => row.sessionId).Nodup) : ReadDatabase where
  sessionSummaries := ⟨summaries, h⟩
  sessionMessages := ⟨[], List.nodup_nil⟩
  sessionSteps := ⟨[], List.nodup_nil⟩
  messageFeedback := ⟨[], List.nodup_nil⟩
  tenants := registry .active

/-- The caller's session next to a colleague's, and alone. -/
def shared : ReadDatabase := database [neighbour, own] (by decide)
def alone : ReadDatabase := database [own] (by decide)

def request (path : String) : HttpRequest := ⟨ofString path, [], headers "end_user", [], []⟩

def codec : CursorCodec := ⟨id, some⟩

theorem caller_agrees (path : String) : CallerAgrees (request path) shared alone where
  registry _ _ := rfl
  rows tid oid row htid hoid hrow := by
    have htid' : Guid.tryParse (headers "end_user").tenantId = some 1 := by decide +kernel
    have hoid' : Guid.tryParse (headers "end_user").principalId = some 2 := by decide +kernel
    obtain rfl := Option.some.inj (htid'.symm.trans htid)
    obtain rfl := Option.some.inj (hoid'.symm.trans hoid)
    refine ⟨fun row _ hrequester => ?_, fun _ _ _ => Iff.rfl, fun _ _ _ => Iff.rfl,
      fun _ _ _ => Iff.rfl⟩
    constructor
    · intro hmem
      rcases List.mem_cons.mp hmem with rfl | hmem
      · exact absurd hrequester (by decide)
      · exact hmem
    · exact fun hmem => List.mem_cons_of_mem _ hmem

/-- A caller reads the same whether or not a colleague has a session, and a request in other
letters than the audience's gets past the identity stage and reads nothing. -/
theorem colleague_unseen :
    (∃ endpoint, CustomerViewEndpoints.route (request "/api/customer/v1/Views/Sessions").path =
        some endpoint ∧
      (serve (plainDatabase true) codec shared endpoint
        (request "/api/customer/v1/Views/Sessions")).answer =
      (serve (plainDatabase true) codec alone endpoint
        (request "/api/customer/v1/Views/Sessions")).answer) ∧
      ∃ endpoint, CustomerViewEndpoints.route (request "/API/customer/v1/views/sessions").path =
          some endpoint ∧
        (serve (plainDatabase true) codec shared endpoint
          (request "/API/customer/v1/views/sessions")).rowsSeen = [] := by
  have hmixed : (CustomerViewEndpoints.route
      (request "/api/customer/v1/Views/Sessions").path).isSome = true := by decide +kernel
  have hupper : (CustomerViewEndpoints.route
      (request "/API/customer/v1/views/sessions").path).isSome = true := by decide +kernel
  obtain ⟨mixed, hmixed⟩ := Option.isSome_iff_exists.mp hmixed
  obtain ⟨upper, hupper⟩ := Option.isSome_iff_exists.mp hupper
  refine ⟨⟨mixed, hmixed, ?_⟩, upper, hupper, ?_⟩
  · exact (customer_reads_isolated (plainDatabase true) codec _).1 mixed hmixed shared alone
      (caller_agrees _)
  · have hunresolved : AudienceRouting.tryResolve
        (request "/API/customer/v1/views/sessions").path = none := by decide +kernel
    exact (customer_reads_isolated (plainDatabase true) codec _).2.1 shared upper .unbound
      (Answers.eq ⟨_, IdentityContextMiddleware.computes_unresolved shared hunresolved⟩)
      (Or.inl rfl)

end SampleCaller

end Synthia
