import Synthia.Proofs.PublishedAuthority
import Synthia.Api.Openapi

/-!
# The document of an audience

It has the paths of its audience and the schemas that are reachable from those, no others,
and so every reference in it leads to a schema it has: one in a path to a root of the search,
and one in a schema that was reached to the next.
-/

namespace Synthia.Openapi

open Text

/-! ## References -/

mutual

/-- The names are those of the references that lead to schemas. -/
theorem references_eq_filterMap : ∀ node : JsonNode,
    references node = (pointers node).filterMap (behind "#/components/schemas/")
  | .object members => by
      rw [references, pointers, referencesMembers_eq_filterMap members]
  | .array items => by
      rw [references, pointers, referencesItems_eq_filterMap items]
  | .null | .bool _ | .number _ | .string _ => by simp [references, pointers]

theorem referencesMembers_eq_filterMap : ∀ members : List (Name × JsonNode),
    referencesMembers members =
      (pointersMembers members).filterMap (behind "#/components/schemas/")
  | [] => by simp [referencesMembers, pointersMembers]
  | (key, value) :: members => by
      have hvalue := references_eq_filterMap value
      have hrest := referencesMembers_eq_filterMap members
      cases value with
      | string text =>
          cases hkey : key == ofString "$ref" with
          | true =>
              cases hbehind : behind "#/components/schemas/" text <;>
                simp [hkey, hbehind, referencesMembers, pointersMembers, hrest]
          | false => simp [hkey, referencesMembers, pointersMembers, hvalue, hrest]
      | _ => simp [referencesMembers, pointersMembers, hvalue, hrest]

theorem referencesItems_eq_filterMap : ∀ items : List JsonNode,
    referencesItems items = (pointersItems items).filterMap (behind "#/components/schemas/")
  | [] => by simp [referencesItems, pointersItems]
  | value :: items => by
      rw [referencesItems, pointersItems, List.filterMap_append, references_eq_filterMap value,
        referencesItems_eq_filterMap items]

end

theorem behind_eq_some {marker : String} {text name : Name} :
    behind marker text = some name ↔ text = ofString marker ++ name := by
  unfold behind
  constructor
  · intro h
    split at h
    next hmarker =>
      obtain ⟨rest, rfl⟩ := List.isPrefixOf_iff_prefix.mp hmarker
      rw [List.drop_left, Option.some_inj] at h
      rw [h]
    next => cases h
  · intro h
    rw [h, if_pos (List.isPrefixOf_iff_prefix.mpr (List.prefix_append _ name)), List.drop_left]

theorem mem_references {node : JsonNode} {name : Name} :
    name ∈ references node ↔ ofString "#/components/schemas/" ++ name ∈ pointers node := by
  rw [references_eq_filterMap, List.mem_filterMap]
  simp only [behind_eq_some, exists_eq_right]

theorem mem_pointersMembers {members : List (Name × JsonNode)} {text : Name} :
    text ∈ pointersMembers members ↔
      ∃ entry ∈ members, entry = (ofString "$ref", .string text) ∨ text ∈ pointers entry.2 := by
  induction members with
  | nil => simp [pointersMembers]
  | cons head members ih =>
      obtain ⟨key, value⟩ := head
      have hhead : text ∈ pointersMembers [(key, value)] ↔
          (key, value) = (ofString "$ref", .string text) ∨ text ∈ pointers value := by
        cases value with
        | string other =>
            by_cases hkey : key = ofString "$ref"
            · simp only [pointersMembers, hkey, beq_self_eq_true, pointers, List.append_nil,
                List.mem_singleton, List.not_mem_nil, Prod.mk.injEq, Json.Value.string.injEq,
                true_and, or_false]
              exact eq_comm
            · simp [pointersMembers, hkey, pointers]
        | _ => simp [pointersMembers]
      have hcons : text ∈ pointersMembers ((key, value) :: members) ↔
          text ∈ pointersMembers [(key, value)] ∨ text ∈ pointersMembers members := by
        simp [pointersMembers]
      rw [hcons, hhead, ih]
      simp only [List.mem_cons, exists_eq_or_imp]

theorem pointers_of_mem_entries {node : JsonNode} {entry : Name × JsonNode}
    (hentry : entry ∈ entries node) {text : Name} (htext : text ∈ pointers entry.2) :
    text ∈ pointers node := by
  cases node with
  | object members =>
      rw [pointers]
      exact mem_pointersMembers.mpr ⟨entry, hentry, .inr htext⟩
  | _ => cases hentry

theorem pointers_of_child (key : String) {node : JsonNode} {text : Name}
    (htext : text ∈ pointers (child key node)) : text ∈ pointers node := by
  unfold child at htext
  cases hget : get key node with
  | none =>
      rw [hget] at htext
      exact absurd htext (by simp [pointers, pointersMembers])
  | some value =>
      rw [hget] at htext
      exact pointers_of_mem_entries (mem_entries_of_member hget) htext

/-! ## Members -/

theorem isSome_member_iff {node : JsonNode} {name : Name} :
    (node.member name).isSome = true ↔ name ∈ (entries node).map Prod.fst := by
  cases node with
  | object members => simp [entries, Json.Value.member, List.find?_isSome]
  | _ => simp [entries, Json.Value.member]

/-- Where every name is given once, a member is what is found under its name. -/
theorem member_of_mem_entries {node : JsonNode} (honce : ((entries node).map Prod.fst).Nodup)
    {entry : Name × JsonNode} (hentry : entry ∈ entries node) :
    node.member entry.1 = some entry.2 := by
  obtain ⟨found, hfound⟩ := Option.isSome_iff_exists.mp
    (isSome_member_iff.mpr (List.mem_map_of_mem hentry))
  have hsame : (entry.1, found) = entry :=
    List.inj_on_of_nodup_map honce (mem_entries_of_member hfound) hentry rfl
  rw [hfound, ← hsame]

theorem mem_sortKeys {members : List (Name × JsonNode)} {entry : Name × JsonNode} :
    entry ∈ Json.sortKeys members ↔ entry ∈ members :=
  (List.perm_insertionSort _ members).mem_iff

theorem pointers_sortKeys {members : List (Name × JsonNode)} {text : Name} :
    text ∈ pointers (.object (Json.sortKeys members)) ↔ text ∈ pointers (.object members) := by
  rw [pointers, pointers, mem_pointersMembers, mem_pointersMembers]
  simp only [mem_sortKeys]

/-! ## The document -/

/-- The component schemas a document has. -/
def schemasOf (document : JsonNode) : JsonNode := child "schemas" (child "components" document)

/-- What the paths of an audience refer to. -/
def pathReferences (full : Document) (start : Name) : List Name :=
  (pathsOf full start).flatMap fun item => references item.2

/-- What the document of an audience is to be. -/
structure AudienceContract (full : Document) (start : Name) (document : JsonNode) : Prop where
  paths : (entries (child "paths" document)).Perm (pathsOf full start)
  schemas : ∀ entry, entry ∈ entries (schemasOf document) ↔ entry ∈ entries full.schemas ∧
    Worklist.Reaches (schemaGraph full) (pathReferences full start) entry.1
  resolves : ∀ text ∈ pointers document, LeadsTo (schemasOf document) text

theorem child_paths (full : Document) (audience start : Name) :
    child "paths" (documentOf full audience start) =
      .object (Json.sortKeys (pathsOf full start)) := by
  unfold documentOf componentsMember
  split <;> rfl

theorem schemasOf_documentOf (full : Document) (audience start : Name) :
    schemasOf (documentOf full audience start) =
      .object (Json.sortKeys (reachableComponents full (pathsOf full start))) := by
  unfold documentOf componentsMember
  split
  next hempty =>
    rw [List.isEmpty_iff.mp hempty]
    rfl
  next => rfl

theorem not_mem_pointers_info {audience text : Name} : text ∉ pointers (info audience) := by
  have hnone : pointers (info audience) = [] := by rfl
  rw [hnone]
  exact List.not_mem_nil

/-- What the document refers to, its paths do or its schemas. -/
theorem mem_pointers_documentOf {full : GeneratedDocument} {audience start text : Name}
    (h : text ∈ pointers (documentOf full.toDocument audience start)) :
    text ∈ pointers (.object (pathsOf full.toDocument start)) ∨
      text ∈ pointers
        (.object (reachableComponents full.toDocument (pathsOf full.toDocument start))) := by
  have hnamed : ∀ {key : Name} {value : JsonNode} {property : Prop}, key ≠ ofString "$ref" →
      ((key, value) = (ofString "$ref", .string text) ∨ property) → property :=
    fun hkey hor => hor.resolve_left fun heq => hkey (Prod.mk.inj heq).1
  rw [documentOf, pointers, mem_pointersMembers] at h
  obtain ⟨entry, hentry, htext⟩ := h
  rcases List.mem_append.mp hentry with hhead | hcomponents
  · simp only [List.mem_cons, List.not_mem_nil, or_false] at hhead
    rcases hhead with rfl | rfl | rfl
    · have hversion := hnamed (by decide) htext
      cases hget : get "openapi" full.root with
      | none =>
          rw [hget] at hversion
          exact absurd hversion (by simp [pointers])
      | some version =>
          obtain ⟨found, rfl⟩ := full.versionText version hget
          rw [hget] at hversion
          exact absurd hversion (by simp [pointers])
    · exact absurd (hnamed (by decide) htext) not_mem_pointers_info
    · exact .inl (pointers_sortKeys.mp (hnamed (by decide) htext))
  · unfold componentsMember at hcomponents
    split at hcomponents
    · cases hcomponents
    · rw [List.mem_singleton] at hcomponents
      subst hcomponents
      have hschemas := hnamed (by decide) htext
      rw [pointers, mem_pointersMembers] at hschemas
      obtain ⟨schemas, hmem, hor⟩ := hschemas
      rw [List.mem_singleton] at hmem
      subst hmem
      exact .inr (pointers_sortKeys.mp (hnamed (by decide) hor))

section Reached

variable {full : Document} {start : Name}

/-- No path has the name of a reference. -/
theorem not_pointer_of_mem_pathsOf {rest text : Name} (hstart : start = ofString "/api/" ++ rest)
    {entry : Name × JsonNode} (hentry : entry ∈ pathsOf full start) :
    entry ≠ (ofString "$ref", .string text) := by
  intro hpointer
  have hprefix := (List.mem_filter.mp hentry).2
  rw [hpointer, hstart, List.isPrefixOf_iff_prefix] at hprefix
  obtain ⟨tail, htail⟩ := hprefix
  have hhead := congrArg List.head? htail
  change (ofString "/").head? = (ofString "$ref").head? at hhead
  exact absurd hhead (by decide)

theorem mem_pathReferences {rest name : Name} (hstart : start = ofString "/api/" ++ rest) :
    name ∈ references (.object (pathsOf full start)) ↔ name ∈ pathReferences full start := by
  rw [mem_references, pointers, mem_pointersMembers]
  unfold pathReferences
  rw [List.mem_flatMap]
  refine exists_congr fun entry => and_congr_right fun hentry => ?_
  rw [mem_references]
  exact or_iff_right (not_pointer_of_mem_pathsOf hstart hentry)

theorem mem_reachableComponents {rest : Name} (hstart : start = ofString "/api/" ++ rest)
    {entry : Name × JsonNode} :
    entry ∈ reachableComponents full (pathsOf full start) ↔ entry ∈ entries full.schemas ∧
      Worklist.Reaches (schemaGraph full) (pathReferences full start) entry.1 := by
  have hroots : Worklist.Reaches (schemaGraph full)
        (references (.object (pathsOf full start))) entry.1 ↔
      Worklist.Reaches (schemaGraph full) (pathReferences full start) entry.1 :=
    ⟨Worklist.Reaches.mono fun name => (mem_pathReferences hstart).mp,
      Worklist.Reaches.mono fun name => (mem_pathReferences hstart).mpr⟩
  unfold reachableComponents
  split
  next hempty =>
    rw [List.isEmpty_iff.mp hempty]
    simp
  next =>
    rw [List.mem_filter, List.contains_iff_mem, Worklist.mem_collect_iff]
    exact and_congr_right fun _ => hroots

end Reached

/-- A schema that is reached is in the document. -/
theorem leadsTo_of_reaches {full : Document} {audience start rest name : Name}
    (hstart : start = ofString "/api/" ++ rest)
    (h : Worklist.Reaches (schemaGraph full) (pathReferences full start) name) :
    LeadsTo (schemasOf (documentOf full audience start))
      (ofString "#/components/schemas/" ++ name) := by
  obtain ⟨schema, hschema⟩ := h.exists_node
  have hmem := (mem_reachableComponents hstart).mpr ⟨mem_entries_of_member hschema, h⟩
  refine ⟨name, rfl, ?_⟩
  rw [schemasOf_documentOf, isSome_member_iff]
  exact List.mem_map_of_mem (mem_sortKeys.mpr hmem)

theorem audienceContract (full : GeneratedDocument) {audience start rest : Name}
    (hstart : start = ofString "/api/" ++ rest) :
    AudienceContract full.toDocument start (documentOf full.toDocument audience start) := by
  refine ⟨?_, fun entry => ?_, fun text htext => ?_⟩
  · rw [child_paths]
    exact List.perm_insertionSort _ _
  · rw [schemasOf_documentOf, entries, mem_sortKeys]
    exact mem_reachableComponents hstart
  · rcases mem_pointers_documentOf htext with hpaths | hschemas
    · rw [pointers, mem_pointersMembers] at hpaths
      obtain ⟨item, hitem, hor⟩ := hpaths
      have hinside := hor.resolve_left (not_pointer_of_mem_pathsOf hstart hitem)
      have hroot : text ∈ pointers full.root := pointers_of_child "paths"
        (pointers_of_mem_entries (List.mem_filter.mp hitem).1 hinside)
      obtain ⟨name, rfl, hsome⟩ := full.resolves text hroot
      obtain ⟨target, htarget⟩ := Option.isSome_iff_exists.mp hsome
      refine leadsTo_of_reaches hstart (.root ?_ htarget)
      exact List.mem_flatMap.mpr ⟨item, hitem, mem_references.mpr hinside⟩
    · rw [pointers, mem_pointersMembers] at hschemas
      obtain ⟨entry, hentry, hor⟩ := hschemas
      obtain ⟨hmem, hreaches⟩ := (mem_reachableComponents hstart).mp hentry
      have hinside := hor.resolve_left fun hpointer => by
        have hobject := full.schemasObjects entry hmem
        rw [hpointer] at hobject
        cases hobject
      have hroot : text ∈ pointers full.root := pointers_of_child "components"
        (pointers_of_child "schemas" (pointers_of_mem_entries hmem hinside))
      obtain ⟨name, rfl, hsome⟩ := full.resolves text hroot
      obtain ⟨target, htarget⟩ := Option.isSome_iff_exists.mp hsome
      have hfind := member_of_mem_entries full.schemasOnce hmem
      exact leadsTo_of_reaches hstart
        (.step hreaches hfind (mem_references.mpr hinside) htarget)

/-- **An audience's document is closed and has nothing of the others.** Of each of the three
audiences there is one: with the paths that begin with its prefix, with the schemas that are
reachable from those, and with no reference that does not lead to one of them. Of any other
name there is none. -/
theorem audienceDocument_contract (full : GeneratedDocument) (audience : Name) :
    (audience ∈ audiences → ∃ document,
        audienceDocument full.toDocument audience = .ok document ∧
          AudienceContract full.toDocument (prefixOf audience) document) ∧
      (audience ∉ audiences → audienceDocument full.toDocument audience = .error ⟨audience⟩) := by
  unfold audienceDocument audiencePrefix
  constructor
  · intro haudience
    rw [if_pos (List.contains_iff_mem.mpr haudience)]
    have hstart : prefixOf audience =
        ofString "/api/" ++ (audience ++ (ofString "/" ++ contractVersion)) := by
      rw [prefixOf, List.append_assoc, List.append_assoc]
    exact ⟨_, rfl, audienceContract full hstart⟩
  · intro hunknown
    rw [if_neg fun hcontains => hunknown (List.contains_iff_mem.mp hcontains)]
    rfl

/-- A document with a path each for two audiences; two of its schemas refer to each other. -/
def twoAudiences : JsonNode :=
  let refer (name : String) : JsonNode :=
    .object [(ofString "$ref", .string (ofString "#/components/schemas/" ++ ofString name))]
  .object
    [(ofString "paths", .object
        [(ofString "/api/staff/v1/audit", .object [(ofString "get", refer "AuditEntry")]),
          (ofString "/api/customer/v1/sessions", .object [(ofString "get", refer "Thread")])]),
      (ofString "components", .object [(ofString "schemas", .object
        [(ofString "Thread", .object [(ofString "items", refer "Message")]),
          (ofString "Message", .object [(ofString "parent", refer "Thread")]),
          (ofString "AuditEntry", .object [(ofString "of", refer "Message")])])])]

instance (schemas : JsonNode) (text : Name) : Decidable (LeadsTo schemas text) :=
  decidable_of_iff (∃ name ∈ behind "#/components/schemas/" text,
      (schemas.member name).isSome = true) <| by
    simp only [LeadsTo, Option.mem_def, behind_eq_some]

def generatedDocument : GeneratedDocument where
  root := twoAudiences
  wellFormed := by decide +kernel
  schemasOnce := by decide +kernel
  schemasObjects := by decide +kernel
  resolves := by decide +kernel
  versionText version h := by
    have hnone : get "openapi" twoAudiences = none := by decide +kernel
    rw [hnone] at h
    cases h

example : (audienceDocument generatedDocument.toDocument (ofString "customer")).toOption.map
      (fun document => (entries (schemasOf document)).map Prod.fst) =
    some [ofString "Message", ofString "Thread"] := by
  decide +kernel

theorem generatedDocument_contract :
    (∃ document, audienceDocument generatedDocument.toDocument (ofString "customer") =
          .ok document ∧
        AudienceContract generatedDocument.toDocument (prefixOf (ofString "customer"))
          document) ∧
      audienceDocument generatedDocument.toDocument (ofString "tenant") =
        .error ⟨ofString "tenant"⟩ :=
  ⟨(audienceDocument_contract generatedDocument (ofString "customer")).1 (by decide +kernel),
    (audienceDocument_contract generatedDocument (ofString "tenant")).2 (by decide +kernel)⟩

end Synthia.Openapi
