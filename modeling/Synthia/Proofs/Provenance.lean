import Synthia.Lib.Exceptions
import Synthia.Proofs.CheckpointSweep
import Synthia.Proofs.Fusion
import Synthia.Proofs.OnePost
import Synthia.Proofs.RepeatedEvidence
import Synthia.Retrieval.Search

/-!
# Whose documents a thread has read

A chunk that leaves an index was read from a document labelled with the organisation that
was asked for, and fusing two legs makes no chunk of its own: the content and the reference
of a fused chunk are those of one chunk of a leg. A thread is named by its organisation, so
what any run of any threads puts in a thread's evidence was read from documents labelled
with the organisation the thread is named by, and every request issued for the thread asks
for that organisation's documents.
-/

namespace Synthia

open Text Json

namespace Search

variable {tenant : TenantContext} {float : List CodePoint → ℚ} {document : Value CodePoint}

/-- A document of that organisation, with that content and that reference, as far as a
`String` can hold it. -/
structure Carries (organisation : TenantId) (document : Value CodePoint)
    (content : List CodePoint) (reference : String) : Prop where
  labelled : document.member tenantField = some (.string organisation.value.toText)
  content : document.member (ofString "content") = some (.string content)
  reference :
    (document.member (ofString "source_reference") = none ∧ reference = asString []) ∨
      (document.member (ofString "source_reference") = some .null ∧ reference = asString []) ∨
      ∃ text, document.member (ofString "source_reference") = some (.string text) ∧
        reference = asString text

theorem requireObject_ok {members : List (List CodePoint × Value CodePoint)}
    (h : requireObject document = .ok members) : document = .object members := by
  cases document with
  | object own =>
      injection h with h
      rw [h]
  | null | bool | number | string | array => cases h

theorem requireText_ok {field : String} {text : List CodePoint}
    (h : requireText document field = .ok text) :
    document.member (ofString field) = some (.string text) := by
  rw [requireText] at h
  split at h
  · cases h
  · cases h
  · next own hmember =>
      split at h
      · cases h
      · split at h
        · cases h
        · injection h with h
          rw [hmember, h]
  · cases h

theorem optionalText_ok {field : String} {text : Option (List CodePoint)}
    (h : optionalText document field = .ok text) :
    (document.member (ofString field) = none ∧ text = none) ∨
      (document.member (ofString field) = some .null ∧ text = none) ∨
      ∃ own, document.member (ofString field) = some (.string own) ∧ text = some own := by
  rw [optionalText] at h
  split at h
  · next hmember =>
      injection h with h
      exact Or.inl ⟨hmember, h.symm⟩
  · next hmember =>
      injection h with h
      exact Or.inr (Or.inl ⟨hmember, h.symm⟩)
  · obtain ⟨own, hown, h⟩ := Exceptions.map_eq_ok.mp h
    exact Or.inr (Or.inr ⟨own, requireText_ok hown, h.symm⟩)

theorem belongsTo_iff {expected : List CodePoint} :
    belongsTo expected document = true ↔
      document.member tenantField = some (.string expected) := by
  rw [belongsTo]
  split
  · next label hlabel =>
      rw [hlabel, beq_iff_eq]
      constructor
      · intro h
        rw [h]
      · intro h
        injection h with h
        injection h
  · next hother =>
      refine iff_of_false Bool.false_ne_true fun h => ?_
      exact hother expected h

theorem readDocument_ok {chunk : RetrievedChunk}
    (h : readDocument float tenant.tenantId.value.toText document = .ok chunk) :
    Carries tenant.tenantId document chunk.content chunk.sourceReference := by
  obtain ⟨fields, hfields, h⟩ := Exceptions.bind_eq_ok.mp h
  rw [requireObject_ok hfields]
  cases hbelongs : belongsTo tenant.tenantId.value.toText (.object fields) with
  | false =>
      rw [hbelongs] at h
      cases h
  | true =>
      rw [hbelongs] at h
      obtain ⟨content, hcontent, h⟩ := Exceptions.bind_eq_ok.mp h
      obtain ⟨score, -, h⟩ := Exceptions.bind_eq_ok.mp h
      obtain ⟨reference, hreference, h⟩ := Exceptions.bind_eq_ok.mp h
      injection h with h
      rw [← h]
      refine ⟨belongsTo_iff.mp hbelongs, requireText_ok hcontent, ?_⟩
      rcases optionalText_ok hreference with
        ⟨hnone, rfl⟩ | ⟨hnull, rfl⟩ | ⟨text, htext, rfl⟩
      · exact Or.inl ⟨hnone, rfl⟩
      · exact Or.inr (Or.inl ⟨hnull, rfl⟩)
      · exact Or.inr (Or.inr ⟨text, htext, rfl⟩)

/-- The documents an answer lists. -/
def Lists (payload document : Value CodePoint) : Prop :=
  ∃ documents, payload.member (ofString "value") = some (.array documents) ∧
    document ∈ documents

theorem read_ok {payload : Value CodePoint} {chunks : List RetrievedChunk}
    (h : read float tenant payload = .ok chunks) {chunk : RetrievedChunk}
    (hchunk : chunk ∈ chunks) :
    ∃ document, Lists payload document ∧
      Carries tenant.tenantId document chunk.content chunk.sourceReference := by
  obtain ⟨body, hbody, h⟩ := Exceptions.bind_eq_ok.mp h
  rw [requireObject_ok hbody]
  split at h
  · next documents hdocuments =>
      obtain ⟨document, hmem, hdocument⟩ :=
        Exceptions.exists_of_mem_mapM h hchunk
      exact ⟨document, ⟨documents, hdocuments, hmem⟩, readDocument_ok hdocument⟩
  · cases h

theorem outbound_ok {settings : RetrievalSettings} {token : Option (List CodePoint)}
    {text : List CodePoint} {limit : Int} {request : OutboundRequest}
    (h : outbound settings token tenant text limit = .ok request) :
    request.jsonBody = some (query tenant text limit) := by
  unfold outbound at h
  cases hset : settings.isConfigured with
  | false =>
      rw [hset] at h
      cases h
  | true =>
      rw [hset] at h
      cases token with
      | none => cases h
      | some token =>
          dsimp only [bind, Except.bind, pure, Except.pure] at h
          split at h
          · cases h
          · split at h
            · cases h
            · next made hmade =>
                injection h with h
                rw [← h]
                rw [OutboundRequest.make] at hmade
                split at hmade
                · injection hmade with hmade
                  rw [← hmade]
                · cases hmade

/-- The request asks for that organisation's documents. -/
def Asks (organisation : TenantId) (request : OutboundRequest) : Prop :=
  ∃ body, request.jsonBody = some body ∧
    body.member (ofString "filter") =
      some (.string (tenantField ++ ofString " eq '" ++ organisation.value.toText ++
        ofString "'"))

theorem query_filter (tenant : TenantContext) (text : List CodePoint) (limit : Int) :
    (query tenant text limit).member (ofString "filter") =
      some (.string (tenantFilter tenant)) := by
  have hself : (ofString "filter" == ofString "filter") = true := by decide
  rw [query, Value.member, List.reverse_cons, List.reverse_cons, List.reverse_cons]
  simp only [List.reverse_nil, List.nil_append, List.cons_append, List.find?_cons, hself,
    Option.map_some]

end Search

/-! ## Sending -/

namespace ResilientHttpCaller

variable {system : String} {request : OutboundRequest} {farSide : Nat → FarSide}

/-- An attempt that succeeds is one that was answered. -/
theorem attempted_ok {behaviour : FarSide} {response : HttpResponse}
    (h : attempted system behaviour = .ok response) : behaviour = .responded response := by
  cases behaviour with
  | timedOut | transportFailed => cases h
  | responded answer =>
      rw [attempted] at h
      split at h
      · injection h with h
        rw [h]
      · cases h

/-- What the caller is answered with came back from one of the attempts it made. -/
theorem send_ok {policy : RetryPolicy} {response : HttpResponse}
    (h : (send policy system request farSide).2 = .ok response) :
    .responded response ∈
      Retry.answers FarSide.isTransient farSide policy.maxAttempts 1 := by
  rw [send, sendFrom_result policy.bounded.1] at h
  rw [← attempted_ok h]
  exact List.getLast_mem _

theorem send_issued {policy : RetryPolicy} {sent : OutboundRequest}
    (h : sent ∈ (send policy system request farSide).1) : sent = request := by
  rw [send, sendFrom_issued] at h
  obtain ⟨_, -, hsent⟩ := List.mem_map.mp h
  exact hsent.symm

end ResilientHttpCaller

/-! ## Searching -/

section Search

variable {tenant : TenantContext} {text : List CodePoint} {limit : Int}
  {chunks : List RetrievedChunk} {chunk : RetrievedChunk} {request : OutboundRequest}

/-- The index answered one of the attempts a call makes of it with the document. -/
def AzureAiSearchRetrieval.Returned (index : AzureAiSearchRetrieval)
    (document : Value CodePoint) : Prop :=
  ∃ response payload, .responded response ∈
      Retry.answers FarSide.isTransient index.farSide index.policy.maxAttempts 1 ∧
    response.body = some payload ∧ Search.Lists payload document

def RetrievalPort.Returned : RetrievalPort → Value CodePoint → Prop
  | .index adapter, document => adapter.Returned document
  | .hybrid dense sparse, document => dense.Returned document ∨ sparse.Returned document

theorem AzureAiSearchRetrieval.search_ok {index : AzureAiSearchRetrieval}
    (h : (index.search tenant text limit).2 = .ok chunks) (hchunk : chunk ∈ chunks) :
    ∃ document, index.Returned document ∧
      Search.Carries tenant.tenantId document chunk.content chunk.sourceReference := by
  rw [AzureAiSearchRetrieval.search] at h
  split at h
  · cases h
  · next sent _ =>
      dsimp only at h
      cases hsent : (ResilientHttpCaller.send index.policy Search.system sent
          index.farSide).2 with
      | error error =>
          rw [hsent] at h
          cases h
      | ok response =>
          rw [hsent, Search.answered] at h
          have hmade := ResilientHttpCaller.send_ok hsent
          cases hbody : response.body with
          | none =>
              rw [hbody] at h
              cases h
          | some payload =>
              rw [hbody] at h
              obtain ⟨document, hlists, hcarries⟩ := Search.read_ok h hchunk
              exact ⟨document, ⟨response, payload, hmade, hbody, hlists⟩, hcarries⟩

theorem AzureAiSearchRetrieval.search_asks {index : AzureAiSearchRetrieval}
    (h : request ∈ (index.search tenant text limit).1) :
    Search.Asks tenant.tenantId request := by
  rw [AzureAiSearchRetrieval.search] at h
  split at h
  · cases h
  · next sent hsent =>
      rw [ResilientHttpCaller.send_issued h]
      exact ⟨_, Search.outbound_ok hsent, Search.query_filter tenant text limit⟩

/-- A fused chunk is a chunk of one of the legs, but for its score. -/
theorem exists_source_of_mem_fuse {dense sparse : List RetrievedChunk} {fused : FusedChunk}
    (h : fused ∈ fuse dense sparse limit) :
    ∃ source ∈ dense ++ sparse, source.content = fused.content ∧
      source.sourceReference = fused.sourceReference := by
  obtain ⟨hreference, hfused⟩ := mem_fuse h
  have hcontent : fused.content = (((lastChunk dense fused.sourceReference).or
      (lastChunk sparse fused.sourceReference)).map RetrievedChunk.content).getD [] := by
    rw [← fusedAt_content, ← hfused]
  cases hdense : lastChunk dense fused.sourceReference with
  | some source =>
      obtain ⟨hmem, hsame⟩ := mem_of_lastChunk hdense
      rw [hdense] at hcontent
      exact ⟨source, List.mem_append_left _ hmem, hcontent.symm, hsame⟩
  | none =>
      cases hsparse : lastChunk sparse fused.sourceReference with
      | some source =>
          obtain ⟨hmem, hsame⟩ := mem_of_lastChunk hsparse
          rw [hdense, hsparse] at hcontent
          exact ⟨source, List.mem_append_right _ hmem, hcontent.symm, hsame⟩
      | none =>
          obtain ⟨source, hmem, hsame⟩ := mem_fusedReferences.mp hreference
          rcases List.mem_append.mp hmem with hleg | hleg
          · obtain ⟨last, hlast⟩ := lastChunk_of_mem hleg
            rw [hsame, hdense] at hlast
            cases hlast
          · obtain ⟨last, hlast⟩ := lastChunk_of_mem hleg
            rw [hsame, hsparse] at hlast
            cases hlast

theorem RetrievalPort.search_ok {port : RetrievalPort}
    (h : (port.search tenant text limit).2 = .ok chunks) (hchunk : chunk ∈ chunks) :
    ∃ document, port.Returned document ∧
      Search.Carries tenant.tenantId document chunk.content chunk.sourceReference := by
  induction port generalizing limit chunks chunk with
  | index adapter => exact adapter.search_ok h hchunk
  | hybrid dense sparse ihDense ihSparse =>
      rw [RetrievalPort.search] at h
      dsimp only at h
      split at h
      · cases h
      · next denseChunks hdense =>
          split at h
          · cases h
          · next sparseChunks hsparse =>
              injection h with h
              rw [← h] at hchunk
              obtain ⟨fused, hfused, rfl⟩ := List.mem_map.mp hchunk
              obtain ⟨source, hmem, hcontent, hreference⟩ := exists_source_of_mem_fuse hfused
              show ∃ document, _ ∧ Search.Carries _ document fused.content fused.sourceReference
              rw [← hcontent, ← hreference]
              rcases List.mem_append.mp hmem with hleg | hleg
              · obtain ⟨document, hreturned, hcarries⟩ := ihDense hdense hleg
                exact ⟨document, Or.inl hreturned, hcarries⟩
              · obtain ⟨document, hreturned, hcarries⟩ := ihSparse hsparse hleg
                exact ⟨document, Or.inr hreturned, hcarries⟩

theorem RetrievalPort.search_asks {port : RetrievalPort}
    (h : request ∈ (port.search tenant text limit).1) :
    Search.Asks tenant.tenantId request := by
  induction port generalizing limit with
  | index adapter => exact adapter.search_asks h
  | hybrid dense sparse ihDense ihSparse =>
      rw [RetrievalPort.search] at h
      dsimp only at h
      split at h
      · exact ihDense h
      · split at h
        · rcases List.mem_append.mp h with h | h
          · exact ihDense h
          · exact ihSparse h
        · rcases List.mem_append.mp h with h | h
          · exact ihDense h
          · exact ihSparse h

end Search

/-! ## One step of a thread -/

section Step

variable {thread : Thread} {action : HostAction} {chunks : List RetrievedChunk}

/-- A thread runs on under the context it was running under, its turn's, or the one the
step ran a node with. -/
theorem Thread.step_running {action : Action} {next : Node} {context : RunContext}
    (h : (thread.step action).position = .running next context) :
    (∃ input, action = .turn context input) ∨ thread.position = .running next context ∨
      ∃ node deps payload, thread.performs action = some (node, deps, context, payload) := by
  cases hperforms : thread.performs action with
  | none =>
      rcases Thread.step_still hperforms with
        ⟨own, input, rfl⟩ | hsame | ⟨position, hposition, hmoved⟩
      · injection h with _ h
        exact Or.inl ⟨input, by rw [h]⟩
      · rw [hsame] at h
        exact Or.inr (Or.inl h)
      · rw [hmoved] at h
        change position = _ at h
        rw [h] at hposition
        rcases hposition with hidle | ⟨_, hsuspended⟩
        · cases hidle
        · cases hsuspended
  | some performed =>
      obtain ⟨node, deps, own, payload⟩ := performed
      rw [Thread.step_performs hperforms] at h
      rcases thread.perform_ends node deps own payload with
        ⟨hidle, -⟩ | ⟨_, -, -, ⟨-, hidle⟩ | ⟨_, -, hrunning⟩⟩
      · rw [hidle] at h
        cases h
      · rw [hidle] at h
        cases h
      · rw [hrunning] at h
        injection h with _ h
        exact Or.inr (Or.inr ⟨node, deps, payload, by rw [h]⟩)

/-- The node a step runs, its search answered, runs under the context the thread was
running under or under the one it is resumed with. -/
theorem HostAction.performs_cases {node : Node} {deps : GraphDependencies}
    {context : RunContext} {payload : ResumePayload}
    (h : thread.performs (action.action chunks) = some (node, deps, context, payload)) :
    (∃ own : GraphDependencies, deps = own.searching chunks) ∧
      (thread.position = .running node context ∨ threadConfig context = action.threadId) := by
  cases action with
  | turn | fail => cases h
  | node threadId own port =>
      change thread.performs (.node _) = _ at h
      rw [Thread.performs] at h
      split at h
      · next running hposition =>
          split at h
          · cases h
          · simp only [Option.some.injEq, Prod.mk.injEq] at h
            obtain ⟨rfl, rfl, rfl, -⟩ := h
            exact ⟨⟨own, rfl⟩, Or.inl hposition⟩
      · cases h
      · cases h
  | resume own ownDeps ownPayload port =>
      change thread.performs (.resume _ _ _) = _ at h
      rw [Thread.performs] at h
      split at h
      · simp only [Option.some.injEq, Prod.mk.injEq] at h
        obtain ⟨-, rfl, rfl, -⟩ := h
        exact ⟨⟨ownDeps, rfl⟩, Or.inr rfl⟩
      · cases h
      · cases h

/-- What a step finds is what its search answered with. -/
theorem HostAction.mem_found {item : RetrievedContext}
    (h : item ∈ thread.found (action.action chunks)) :
    ∃ chunk ∈ chunks, chunk.content = item.content ∧
      chunk.sourceReference = item.sourceReference := by
  rw [Thread.found] at h
  split at h
  · next deps context payload hperforms =>
      obtain ⟨⟨own, rfl⟩, -⟩ := HostAction.performs_cases hperforms
      rw [retrieve] at h
      split at h
      · cases h
      · obtain ⟨chunk, hchunk, rfl⟩ := List.mem_map.mp h
        exact ⟨chunk, hchunk, rfl, rfl⟩
  · cases h

/-- What runs behind a step ran before it under the same context, or under one that names
the thread of the step. -/
theorem HostAction.running_step {stepped : Action} {node : Node} {context : RunContext}
    (hstepped : stepped = action.action chunks ∨ stepped = .fail)
    (h : (thread.step stepped).position = .running node context) :
    (∃ earlier, thread.position = .running earlier context) ∨
      threadConfig context = action.threadId := by
  rcases Thread.step_running h with
    ⟨input, hturn⟩ | hrunning | ⟨ran, deps, payload, hperforms⟩
  · rcases hstepped with rfl | rfl
    · cases action with
      | turn => injection hturn with hturn; rw [← hturn]; exact Or.inr rfl
      | node | resume | fail => cases hturn
    · cases hturn
  · exact Or.inl ⟨_, hrunning⟩
  · rcases hstepped with rfl | rfl
    · rcases (HostAction.performs_cases hperforms).2 with hrunning | hresumed
      · exact Or.inl ⟨_, hrunning⟩
      · exact Or.inr hresumed
    · cases hperforms

/-- The evidence behind a step was there before it, or is what its search answered with. -/
theorem HostAction.retrieved_step {stepped : Action} {item : RetrievedContext}
    (hstepped : stepped = action.action chunks ∨ stepped = .fail)
    (h : item ∈ (thread.step stepped).state.retrieved) :
    item ∈ thread.state.retrieved ∨
      ∃ chunk ∈ chunks, chunk.content = item.content ∧
        chunk.sourceReference = item.sourceReference := by
  rw [Thread.step_retrieved] at h
  rcases List.mem_append.mp h with hold | hfound
  · exact Or.inl hold
  · rcases hstepped with rfl | rfl
    · exact Or.inr (HostAction.mem_found hfound)
    · cases hfound

end Step

/-! ## A host's runs -/

/-- Read from a document of the thread's own organisation, which one of the actions on the
thread searched for and was answered with. -/
def FromOrganisation (actions : List HostAction) (context : RunContext)
    (item : RetrievedContext) : Prop :=
  ∃ before action after, actions = before ++ action :: after ∧
    action.threadId = threadConfig context ∧
    ∃ port tenant text document,
      action.searches ((({} : ThreadHost).run before).threads action.threadId) =
        some (port, tenant, text) ∧
      port.Returned document ∧
      Search.Carries context.tenant.tenantId document item.content item.sourceReference

theorem FromOrganisation.append {actions : List HostAction} {context : RunContext}
    {item : RetrievedContext} (h : FromOrganisation actions context item)
    (more : List HostAction) : FromOrganisation (actions ++ more) context item := by
  obtain ⟨before, action, after, hactions, hread⟩ := h
  refine ⟨before, action, after ++ more, ?_, hread⟩
  rw [hactions, List.append_assoc, List.cons_append]

namespace ThreadHost

/-- A thread runs under contexts that name it, holds evidence of its own organisation, and
has asked for no other's. -/
structure Confined (actions : List HostAction) (host : ThreadHost) : Prop where
  own : ∀ threadId node context, (host.threads threadId).position = .running node context →
    threadConfig context = threadId
  evidence : ∀ context, ∀ item ∈ (host.threads (threadConfig context)).state.retrieved,
    FromOrganisation actions context item
  issued : ∀ context request, (threadConfig context, request) ∈ host.issued →
    Search.Asks context.tenant.tenantId request

theorem confined_start : ({} : ThreadHost).Confined [] where
  own _ _ _ h := nomatch h
  evidence _ _ h := nomatch h
  issued _ _ h := nomatch h

variable {host : ThreadHost} {actions : List HostAction} {action : HostAction}

/-- The search of a step asks for the organisation of its thread. -/
theorem tenant_of_searches (h : host.Confined actions) {port : RetrievalPort}
    {tenant : TenantContext} {text : List CodePoint}
    (hsearches : action.searches (host.threads action.threadId) = some (port, tenant, text)) :
    ∀ context, threadConfig context = action.threadId →
      context.tenant.tenantId = tenant.tenantId := by
  intro context hcontext
  rw [HostAction.searches] at hsearches
  split at hsearches
  · next found deps ran payload hport hperforms =>
      dsimp only at hsearches
      split at hsearches
      · cases hsearches
      · injection hsearches with hsearches
        injection hsearches with hfound hrest
        injection hrest with htenant
        have hran : threadConfig ran = action.threadId := by
          rcases (HostAction.performs_cases hperforms).2 with hposition | hresumed
          · exact h.own _ _ _ hposition
          · exact hresumed
        rw [← htenant]
        exact (threadConfig_inj (hcontext.trans hran.symm)).1
  · cases hsearches

/-- A step of one thread keeps what is confined, where what it finds is of the thread's
organisation and so is what it asks. -/
theorem Confined.setThread (h : host.Confined actions)
    (hreached : host = ({} : ThreadHost).run actions) (action : HostAction)
    (chunks : List RetrievedChunk) {stepped : Action}
    (hstepped : stepped = action.action chunks ∨ stepped = .fail)
    (hchunks : ∀ context, threadConfig context = action.threadId → ∀ chunk ∈ chunks,
      ∃ port tenant text document,
        action.searches (host.threads action.threadId) = some (port, tenant, text) ∧
        port.Returned document ∧
        Search.Carries context.tenant.tenantId document chunk.content chunk.sourceReference)
    {sent : List (List CodePoint × OutboundRequest)}
    (hsent : ∀ context request, (threadConfig context, request) ∈ sent →
      Search.Asks context.tenant.tenantId request) :
    ({ host with issued := host.issued ++ sent }.setThread action.threadId
      ((host.threads action.threadId).step stepped)).Confined (actions ++ [action]) := by
  constructor
  · intro threadId node context hposition
    rw [ThreadHost.setThread] at hposition
    dsimp only at hposition
    split at hposition
    · next hthread =>
        rw [hthread]
        rcases HostAction.running_step hstepped hposition with ⟨earlier, hrunning⟩ | hnamed
        · exact h.own _ _ _ hrunning
        · exact hnamed
    · exact h.own _ _ _ hposition
  · intro context item hitem
    rw [ThreadHost.setThread] at hitem
    dsimp only at hitem
    split at hitem
    · next hthread =>
        rcases HostAction.retrieved_step hstepped hitem with
          hold | ⟨chunk, hchunk, hcontent, hreference⟩
        · rw [← hthread] at hold
          exact (h.evidence context item hold).append [action]
        · have hread := hchunks context hthread chunk hchunk
          rw [hcontent, hreference, hreached] at hread
          exact ⟨actions, action, [], rfl, hthread.symm, hread⟩
    · exact (h.evidence context item hitem).append [action]
  · intro context request hrequest
    rcases List.mem_append.mp hrequest with hold | hnew
    · exact h.issued context request hold
    · exact hsent context request hnew

theorem Confined.step (h : host.Confined actions)
    (hreached : host = ({} : ThreadHost).run actions) (action : HostAction) :
    (host.step action).Confined (actions ++ [action]) := by
  have hnothing : ∀ context request,
      (threadConfig context, request) ∈ ([] : List (List CodePoint × OutboundRequest)) →
        Search.Asks context.tenant.tenantId request := fun _ _ hmem => nomatch hmem
  rw [ThreadHost.step]
  dsimp only
  cases hsearches : action.searches (host.threads action.threadId) with
  | none =>
      have hkept := h.setThread hreached action [] (Or.inl rfl)
        (fun _ _ _ hmem => absurd hmem List.not_mem_nil) hnothing
      rwa [List.append_nil] at hkept
  | some searched =>
      obtain ⟨port, tenant, text⟩ := searched
      have htenant := tenant_of_searches h hsearches
      have hsent : ∀ context request, (threadConfig context, request) ∈
          (port.search tenant text retrievalLimit).1.map (fun request =>
            (action.threadId, request)) → Search.Asks context.tenant.tenantId request := by
        intro context request hrequest
        obtain ⟨own, hown, hpair⟩ := List.mem_map.mp hrequest
        injection hpair with hthread hrequest
        rw [← hrequest, htenant context hthread.symm]
        exact RetrievalPort.search_asks hown
      dsimp only
      cases hfound : (port.search tenant text retrievalLimit).2 with
      | error raised =>
          exact h.setThread hreached action [] (Or.inr rfl)
            (fun _ _ _ hmem => absurd hmem List.not_mem_nil) hsent
      | ok chunks =>
          refine h.setThread hreached action chunks (Or.inl rfl)
            (fun context hcontext chunk hchunk => ?_) hsent
          obtain ⟨document, hreturned, hcarries⟩ := RetrievalPort.search_ok hfound hchunk
          rw [← htenant context hcontext] at hcarries
          exact ⟨port, tenant, text, document, hsearches, hreturned, hcarries⟩

theorem confined_run (actions : List HostAction) :
    (({} : ThreadHost).run actions).Confined actions := by
  induction actions using List.reverseRecOn with
  | nil => exact confined_start
  | append_singleton actions action ih =>
      have hlast := ih.step rfl action
      rwa [ThreadHost.run, List.foldl_append]

/-- Whatever the threads of a process do and in whatever order, the evidence a thread
holds was read from documents labelled with the organisation it is named by, each an answer
to a search of that thread; and every request issued for it asks for that organisation's
documents. -/
theorem evidence_of_own_organisation (actions : List HostAction) (context : RunContext) :
    (∀ item ∈ ((({} : ThreadHost).run actions).threads
        (threadConfig context)).state.retrieved, FromOrganisation actions context item) ∧
      ∀ request, (threadConfig context, request) ∈ (({} : ThreadHost).run actions).issued →
        Search.Asks context.tenant.tenantId request :=
  have hrun := confined_run actions
  ⟨hrun.evidence context, hrun.issued context⟩

end ThreadHost

end Synthia
