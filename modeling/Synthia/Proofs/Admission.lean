import Synthia.ReadModels.Identity

/-!
# Two readings of one header contract

Each service builds a principal out of the same five values. The read side takes a
value only as the contract spells it, so what it accepts can be written down: two
identifiers `Guid.TryParse` reads, one of nine role headers, the class of the audience.
The decision service takes any two identifiers `UUID` reads and makes something of
whatever the other headers hold.

So where the read side accepts, the two agree as soon as both read the same identifiers;
where it refuses, they agree only if the decision service cannot read the identifiers
either. What is left is the registry. The decision service asks whether the organisation
is active; the read side asks only whether there is one.
-/

namespace Synthia

open Text Relational

/-! ## The headers of the contract -/

/-- The role sets there are, each in canonical order. -/
def canonicalRoles : List (List StaffRole) :=
  [[.endUser], [.none], [.administrator], [.seniorTechnician], [.technician],
    [.administrator, .seniorTechnician], [.administrator, .technician],
    [.seniorTechnician, .technician], [.administrator, .seniorTechnician, .technician]]

def rolesHeader (roles : List StaffRole) : List CodePoint :=
  [0x2C].intercalate (roles.map fun role => ofString role.value)

/-- The class of an audience, as the header spells it. -/
def classHeader : Audience → List CodePoint
  | .workload => ofString "app"
  | .customer | .staff => ofString "delegated"

def classOf : Audience → CredentialClass
  | .workload => .app
  | .customer | .staff => .delegated

/-- The role header and the credential class are the contract's. -/
def ContractHeaders (headers : IdentityHeaders) (audience : Audience) : Prop :=
  (∃ roles ∈ canonicalRoles, headers.roles = some (rolesHeader roles)) ∧
    headers.credentialClass = some (classHeader audience)

/-! ## What the read side accepts -/

namespace PrincipalFactory

theorem parseParts_eq_some {parsed roles : List StaffRole} {parts : List (List CodePoint)}
    (h : parseParts parsed parts = some roles) :
    ∃ read, roles = parsed ++ read ∧ parts = read.map fun role => ofString role.value := by
  induction parts generalizing parsed with
  | nil =>
      rw [parseParts, Option.some.injEq] at h
      exact ⟨[], by rw [h, List.append_nil], rfl⟩
  | cons part rest ih =>
      rw [parseParts] at h
      cases hrole : StaffRole.parse part with
      | none =>
          rw [hrole] at h
          cases h
      | some role =>
          simp only [hrole] at h
          split at h
          · cases h
          · obtain ⟨read, hroles, hrest⟩ := ih h
            exact ⟨role :: read, by rw [hroles, List.append_assoc, List.singleton_append],
              by rw [List.map_cons, ← StaffRole.parse_eq_some hrole, hrest]⟩

/-- One staff role before another. -/
theorem ordinal_cases {first second : StaffRole} (hfirst : isSentinel first = false)
    (hsecond : isSentinel second = false)
    (h : ofString first.value < ofString second.value) :
    (first = .administrator ∧ (second = .seniorTechnician ∨ second = .technician)) ∨
      (first = .seniorTechnician ∧ second = .technician) := by
  revert hfirst hsecond h
  cases first <;> cases second <;> decide

theorem mem_canonicalRoles {roles : List StaffRole} (hne : roles ≠ [])
    (hcanonical : isCanonical roles = true)
    (hsentinel : (roles.any isSentinel && decide (1 < roles.length)) = false) :
    roles ∈ canonicalRoles := by
  cases roles with
  | nil => exact absurd rfl hne
  | cons first rest =>
      cases rest with
      | nil => cases first <;> decide
      | cons second rest =>
          have hall : ∀ role ∈ first :: second :: rest, isSentinel role = false := by
            simpa using hsentinel
          have hstep : ∀ {a b : StaffRole} {more : List StaffRole},
              isCanonical (a :: b :: more) = true →
                ofString a.value < ofString b.value ∧ isCanonical (b :: more) = true := by
            intro a b more h
            rw [isCanonical, Bool.and_eq_true, decide_eq_true_eq] at h
            exact h
          obtain ⟨hlt, hsecond⟩ := hstep hcanonical
          have hpair := ordinal_cases (hall first (by simp)) (hall second (by simp)) hlt
          cases rest with
          | nil => rcases hpair with ⟨rfl, rfl | rfl⟩ | ⟨rfl, rfl⟩ <;> decide
          | cons third rest =>
              obtain ⟨hlt, hthird⟩ := hstep hsecond
              have hnext := ordinal_cases (hall second (by simp)) (hall third (by simp)) hlt
              -- only one chain of three, and nothing comes after its end
              obtain ⟨rfl, rfl, rfl⟩ : first = .administrator ∧ second = .seniorTechnician ∧
                  third = .technician := by
                rcases hpair with ⟨rfl, rfl | rfl⟩ | ⟨rfl, rfl⟩
                · exact ⟨rfl, rfl, by simpa using hnext⟩
                · simp at hnext
                · simp at hnext
              cases rest with
              | nil => decide
              | cons fourth rest =>
                  have hlast := ordinal_cases (hall .technician (by simp))
                    (hall fourth (by simp)) (hstep hthird).1
                  simp at hlast

/-- The role headers that are accepted, and the sets they name. -/
theorem tryParseRoles_eq_ok {header : Option (List CodePoint)} {set : RoleSet} :
    tryParseRoles header = .ok set ↔
      ∃ roles ∈ canonicalRoles, header = some (rolesHeader roles) ∧ set = ⟨roles.toFinset⟩ := by
  constructor
  · intro h
    rw [tryParseRoles] at h
    split at h
    · cases h
    · next hpresent =>
        cases header with
        | none => exact absurd rfl hpresent
        | some text =>
            cases hparsed : parseParts [] ((some text).getD [] |>.splitOn 0x2C) with
            | none =>
                rw [hparsed] at h
                cases h
            | some roles =>
                simp only [hparsed] at h
                split at h
                · cases h
                · next hcanonical =>
                    split at h
                    · cases h
                    · next hsentinel =>
                        obtain ⟨read, hread, hparts⟩ := parseParts_eq_some hparsed
                        rw [List.nil_append] at hread
                        subst hread
                        have hne : roles ≠ [] := by
                          rintro rfl
                          exact List.splitOn_ne_nil _ _ hparts
                        refine ⟨roles, mem_canonicalRoles hne (by simpa using hcanonical)
                          (Bool.eq_false_iff.mpr hsentinel), ?_, (Except.ok.inj h).symm⟩
                        rw [rolesHeader, ← hparts]
                        exact congrArg some (List.intercalate_splitOn 0x2C).symm
  · rintro ⟨roles, hroles, rfl, rfl⟩
    simp only [canonicalRoles, List.mem_cons, List.not_mem_nil, or_false] at hroles
    rcases hroles with rfl | rfl | rfl | rfl | rfl | rfl | rfl | rfl | rfl <;> decide

theorem credentialOf_classHeader (audience : Audience) :
    credentialOf (some (classHeader audience)) = some (classOf audience) := by
  cases audience <;> decide

theorem credentialOf_matches {value : Option (List CodePoint)} {audience : Audience} :
    (∃ credential, credentialOf value = some credential ∧
      classMatchesAudience credential audience = true) ↔ value = some (classHeader audience) := by
  constructor
  · rintro ⟨credential, hcredential, hmatches⟩
    rw [credentialOf] at hcredential
    split at hcredential
    · next hvalue =>
        cases hcredential
        cases audience with
        | workload => cases hmatches
        | customer | staff => exact hvalue
    · split at hcredential
      · next hvalue =>
          cases hcredential
          cases audience with
          | workload => exact hvalue
          | customer | staff => cases hmatches
      · cases hcredential
  · rintro rfl
    exact ⟨classOf audience, credentialOf_classHeader audience, by cases audience <;> rfl⟩

/-- The principals the read side builds. -/
theorem tryCreate_eq_ok {headers : IdentityHeaders} {audience : Audience}
    {principal : AuthenticatedPrincipal} :
    tryCreate headers audience = .ok principal ↔
      ∃ tid oid, Guid.tryParse headers.tenantId = some tid ∧
        Guid.tryParse headers.principalId = some oid ∧
        ∃ roles ∈ canonicalRoles, headers.roles = some (rolesHeader roles) ∧
          headers.credentialClass = some (classHeader audience) ∧
          principal = ⟨⟨⟨tid⟩, ⟨oid⟩⟩, ⟨roles.toFinset⟩, classOf audience, audience,
            headers.clientSurface.getD []⟩ := by
  constructor
  · intro h
    rw [tryCreate] at h
    split at h
    · next tid oid htid hoid =>
        split at h
        · cases h
        · next credential hcredential =>
            split at h
            · cases h
            · next set hset =>
                split at h
                · cases h
                · next hmatches =>
                    obtain ⟨roles, hroles, hheader, rfl⟩ := tryParseRoles_eq_ok.mp hset
                    have hclass := credentialOf_matches.mp
                      ⟨credential, hcredential, by simpa using hmatches⟩
                    rw [hclass, credentialOf_classHeader] at hcredential
                    obtain rfl := Option.some.inj hcredential
                    exact ⟨tid, oid, htid, hoid, roles, hroles, hheader, hclass,
                      (Except.ok.inj h).symm⟩
    · cases h
  · rintro ⟨tid, oid, htid, hoid, roles, hroles, hheader, hclass, rfl⟩
    have hset := tryParseRoles_eq_ok.mpr ⟨roles, hroles, hheader, rfl⟩
    have hmatches : classMatchesAudience (classOf audience) audience = true := by
      cases audience <;> rfl
    simp only [tryCreate, htid, hoid, hclass, credentialOf_classHeader, hset, hmatches]
    rfl

end PrincipalFactory

/-! ## What the decision service accepts -/

namespace Deps

/-- The identifier `UUID` reads in a header, once it is trimmed. -/
def readUuid (value : Option (List CodePoint)) : Option Uuid := Uuid.ofText (header value)

/-- A path of an audience is one of that audience to the decision service as well. -/
theorem audienceFor_of_tryResolve {path : List CodePoint} {audience : Audience}
    (h : AudienceRouting.tryResolve path = some audience) : audienceFor path = .ok audience := by
  have hprefix : ∀ {start : List CodePoint}, startsWithSegments path start = true →
      ∃ rest, path = start ++ rest := by
    intro start hstart
    rw [startsWithSegments, Bool.and_eq_true] at hstart
    obtain ⟨rest, hrest⟩ := List.isPrefixOf_iff_prefix.mp hstart.1
    exact ⟨rest, hrest.symm⟩
  rw [AudienceRouting.tryResolve] at h
  split at h
  · next hcustomer =>
      obtain ⟨rest, rfl⟩ := hprefix hcustomer
      cases h
      rfl
  · split at h
    · next hstaff =>
        obtain ⟨rest, rfl⟩ := hprefix hstaff
        cases h
        rfl
    · split at h
      · next hworkload =>
          obtain ⟨rest, rfl⟩ := hprefix hworkload
          cases h
          rfl
      · cases h

theorem getPrincipal_eq_ok {headers : IdentityHeaders} {path : List CodePoint}
    {audience : Audience} (hpath : audienceFor path = .ok audience)
    {principal : AuthenticatedPrincipal} :
    getPrincipal headers path = .ok principal ↔
      ∃ tid oid, readUuid headers.tenantId = some tid ∧ readUuid headers.principalId = some oid ∧
        principal = ⟨⟨⟨tid⟩, ⟨oid⟩⟩, roles (header headers.roles),
          credentialClass (header headers.credentialClass), audience,
          header headers.clientSurface⟩ := by
  have hempty : Uuid.ofText [] = none := by decide
  rw [getPrincipal]
  constructor
  · intro h
    split at h
    · cases h
    · split at h
      · next tid oid htid hoid =>
          rw [hpath] at h
          exact ⟨tid, oid, htid, hoid, (Except.ok.inj h).symm⟩
      · cases h
  · rintro ⟨tid, oid, htid, hoid, rfl⟩
    rw [readUuid] at htid hoid
    have hpresent : ¬ ((header headers.tenantId).isEmpty ||
        (header headers.principalId).isEmpty) = true := by
      rw [Bool.or_eq_true, List.isEmpty_iff, List.isEmpty_iff]
      rintro (hnone | hnone)
      · rw [hnone, hempty] at htid
        cases htid
      · rw [hnone, hempty] at hoid
        cases hoid
    rw [if_neg hpresent]
    simp only [htid, hoid, hpath]
    rfl

/-- What the contract spells is read as it is meant. -/
theorem roles_rolesHeader {canonical : List StaffRole} (h : canonical ∈ canonicalRoles) :
    roles (header (some (rolesHeader canonical))) = ⟨canonical.toFinset⟩ := by
  simp only [canonicalRoles, List.mem_cons, List.not_mem_nil, or_false] at h
  rcases h with rfl | rfl | rfl | rfl | rfl | rfl | rfl | rfl | rfl <;> decide

theorem credentialClass_classHeader (audience : Audience) :
    credentialClass (header (some (classHeader audience))) = classOf audience := by
  cases audience <;> decide

end Deps

/-! ## Whether they agree -/

/-- What the two principals are compared by. -/
def AuthenticatedPrincipal.key (principal : AuthenticatedPrincipal) :
    HumanIdentity × RoleSet × CredentialClass × Audience :=
  (principal.identity, principal.roles, principal.credentialClass, principal.audience)

/-- The organisation the decision service serves. -/
def ragcoreServes (headers : IdentityHeaders) (path : List CodePoint) (registry : Registry) :
    Option TenantContext :=
  (Deps.getPrincipal headers path).toOption.bind fun principal =>
    (Deps.getTenant (some registry) principal).toOption

/-- The scope the read side serves in. -/
def dotnetServes (headers : IdentityHeaders) (audience : Audience) (registry : Registry) :
    Option TenantScope :=
  (PrincipalFactory.tryCreate headers audience).toOption.bind (tryBindScope registry)

structure SameCallers (headers : IdentityHeaders) (path : List CodePoint) (audience : Audience)
    (registry : Registry) : Prop where
  customers : audience = .customer →
    ((ragcoreServes headers path registry).isSome = true ↔
      (dotnetServes headers audience registry).isSome = true)
  principals : (Deps.getPrincipal headers path).toOption.map (·.key) =
    (PrincipalFactory.tryCreate headers audience).toOption.map (·.key)
  ragcoreActive : ∀ organisation, ragcoreServes headers path registry = some organisation →
    organisation.status = .active
  dotnetActive : ∀ organisation, dotnetServes headers audience registry =
    some (.singleOrganisation organisation) → organisation.status = .active

/-- Either both read the same identifiers under headers the contract allows, and an
organisation that is not served across organisations is active if it is registered; or the
decision service cannot read an identifier, and the read side has something to refuse. -/
def CallersReadAlike (headers : IdentityHeaders) (audience : Audience) (registry : Registry) :
    Prop :=
  (∃ tid oid, Guid.tryParse headers.tenantId = some tid ∧
      Guid.tryParse headers.principalId = some oid ∧
      Deps.readUuid headers.tenantId = some tid ∧ Deps.readUuid headers.principalId = some oid ∧
      ContractHeaders headers audience ∧
      (audience ≠ .staff → ∀ row, registry.find tid = some row → row.status = .active)) ∨
    (Deps.readUuid headers.tenantId = none ∨ Deps.readUuid headers.principalId = none) ∧
      (Guid.tryParse headers.tenantId = none ∨ Guid.tryParse headers.principalId = none ∨
        ¬ ContractHeaders headers audience)

section Agreement

variable {headers : IdentityHeaders} {path : List CodePoint} {audience : Audience}
  {registry : Registry} (hpath : AudienceRouting.tryResolve path = some audience)

theorem getTenant_eq_ok {principal : AuthenticatedPrincipal} {tenant : TenantContext} :
    Deps.getTenant (some registry) principal = .ok tenant ↔
      ∃ row, registry.find principal.identity.tenantId.value = some row ∧ row.status = .active ∧
        tenant = ⟨⟨row.tenantId⟩, ⟨row.entraTid⟩, row.status, .endUserIdentity⟩ := by
  rw [Deps.getTenant, Deps.admitEndUser]
  cases hrow : registry.find principal.identity.tenantId.value with
  | none => simp
  | some row =>
      by_cases hactive : row.status = .active
      · simp [Option.filter_some, TenantContext.isAdmitted, hactive, eq_comm]
      · simp [Option.filter_some, TenantContext.isAdmitted, hactive]

/-- Whatever the decision service serves is active. -/
theorem ragcoreServes_active {organisation : TenantContext}
    (h : ragcoreServes headers path registry = some organisation) :
    organisation.status = .active := by
  rw [ragcoreServes] at h
  obtain ⟨principal, _, htenant⟩ := Option.bind_eq_some_iff.mp h
  have hok : Deps.getTenant (some registry) principal = .ok organisation := by
    cases hresult : Deps.getTenant (some registry) principal with
    | error e =>
        rw [hresult] at htenant
        cases htenant
    | ok tenant =>
        rw [hresult] at htenant
        exact congrArg _ (Option.some.inj htenant)
  obtain ⟨row, _, hactive, rfl⟩ := getTenant_eq_ok.mp hok
  exact hactive

theorem tryBindScope_staff {principal : AuthenticatedPrincipal}
    (h : principal.audience = .staff) : tryBindScope registry principal = some .operatorWide := by
  rw [tryBindScope, if_pos h]

theorem tryBindScope_of_ne {principal : AuthenticatedPrincipal} (h : principal.audience ≠ .staff) :
    tryBindScope registry principal =
      (registry.find principal.identity.tenantId.value).map fun row =>
        .singleOrganisation ⟨⟨row.tenantId⟩, ⟨row.entraTid⟩, row.status, .endUserIdentity⟩ := by
  rw [tryBindScope, if_neg h]
  rfl

include hpath in
/-- The principals of headers the contract allows are built alike. -/
theorem both_accept {tid oid : Uuid} (htid : Guid.tryParse headers.tenantId = some tid)
    (hoid : Guid.tryParse headers.principalId = some oid)
    (hreadTid : Deps.readUuid headers.tenantId = some tid)
    (hreadOid : Deps.readUuid headers.principalId = some oid)
    (hcontract : ContractHeaders headers audience) :
    ∃ ragcore dotnet, Deps.getPrincipal headers path = .ok ragcore ∧
      PrincipalFactory.tryCreate headers audience = .ok dotnet ∧ ragcore.key = dotnet.key ∧
      dotnet.identity.tenantId.value = tid ∧ dotnet.audience = audience := by
  obtain ⟨⟨roles, hroles, hheader⟩, hclass⟩ := hcontract
  refine ⟨_, _, (Deps.getPrincipal_eq_ok (Deps.audienceFor_of_tryResolve hpath)).mpr
    ⟨tid, oid, hreadTid, hreadOid, rfl⟩, PrincipalFactory.tryCreate_eq_ok.mpr
      ⟨tid, oid, htid, hoid, roles, hroles, hheader, hclass, rfl⟩, ?_, rfl, rfl⟩
  rw [AuthenticatedPrincipal.key, AuthenticatedPrincipal.key, hheader, hclass,
    Deps.roles_rolesHeader hroles, Deps.credentialClass_classHeader]

include hpath in
/-- Both refuse, for want of an identifier on one side and of anything on the other. -/
theorem both_refuse
    (hread : Deps.readUuid headers.tenantId = none ∨ Deps.readUuid headers.principalId = none)
    (hrefuse : Guid.tryParse headers.tenantId = none ∨ Guid.tryParse headers.principalId = none ∨
      ¬ ContractHeaders headers audience) :
    (Deps.getPrincipal headers path).toOption = none ∧
      (PrincipalFactory.tryCreate headers audience).toOption = none := by
  constructor
  · cases hprincipal : Deps.getPrincipal headers path with
    | error e => rfl
    | ok principal =>
        obtain ⟨tid, oid, htid, hoid, _⟩ :=
          (Deps.getPrincipal_eq_ok (Deps.audienceFor_of_tryResolve hpath)).mp hprincipal
        rcases hread with hnone | hnone
        · rw [htid] at hnone
          cases hnone
        · rw [hoid] at hnone
          cases hnone
  · cases hprincipal : PrincipalFactory.tryCreate headers audience with
    | error e => rfl
    | ok principal =>
        obtain ⟨tid, oid, htid, hoid, roles, hroles, hheader, hclass, _⟩ :=
          PrincipalFactory.tryCreate_eq_ok.mp hprincipal
        rcases hrefuse with hnone | hnone | hnot
        · rw [htid] at hnone
          cases hnone
        · rw [hoid] at hnone
          cases hnone
        · exact absurd ⟨⟨roles, hroles, hheader⟩, hclass⟩ hnot

include hpath in
theorem sameCallers_of_alike (h : CallersReadAlike headers audience registry) :
    SameCallers headers path audience registry := by
  rcases h with ⟨tid, oid, htid, hoid, hreadTid, hreadOid, hcontract, hactive⟩ | ⟨hread, hrefuse⟩
  · obtain ⟨ragcore, dotnet, hragcore, hdotnet, hkey, htenant, haudience⟩ :=
      both_accept hpath htid hoid hreadTid hreadOid hcontract
    have hidentity : ragcore.identity = dotnet.identity := congrArg Prod.fst hkey
    refine ⟨fun hcustomer => ?_, ?_, fun _ => ragcoreServes_active,
      fun organisation hserves => ?_⟩
    · have hne : dotnet.audience ≠ .staff := by
        rw [haudience, hcustomer]
        decide
      have hstaff : audience ≠ .staff := haudience ▸ hne
      simp only [ragcoreServes, dotnetServes, hragcore, hdotnet]
      show ((Deps.getTenant (some registry) ragcore).toOption).isSome = true ↔
        (tryBindScope registry dotnet).isSome = true
      rw [tryBindScope_of_ne hne, htenant]
      cases hrow : registry.find tid with
      | none =>
          have hnone : Deps.getTenant (some registry) ragcore =
              .error ⟨403, "This organisation is not currently admitted."⟩ := by
            rw [Deps.getTenant, Deps.admitEndUser, hidentity, htenant, hrow]
            rfl
          rw [hnone]
          exact Iff.rfl
      | some row =>
          have hok := getTenant_eq_ok.mpr
            ⟨row, by rw [hidentity, htenant, hrow], hactive hstaff row hrow, rfl⟩
          rw [hok]
          exact ⟨fun _ => rfl, fun _ => rfl⟩
    · rw [hragcore, hdotnet]
      exact congrArg some hkey
    · simp only [dotnetServes, hdotnet] at hserves
      change tryBindScope registry dotnet = _ at hserves
      by_cases hstaff : dotnet.audience = .staff
      · rw [tryBindScope_staff hstaff] at hserves
        cases hserves
      · rw [tryBindScope_of_ne hstaff, htenant] at hserves
        obtain ⟨row, hrow, horganisation⟩ := Option.map_eq_some_iff.mp hserves
        cases horganisation
        exact hactive (haudience ▸ hstaff) row hrow
  · obtain ⟨hragcore, hdotnet⟩ := both_refuse hpath hread hrefuse
    have hserves : ragcoreServes headers path registry = none := by
      rw [ragcoreServes, hragcore]
      rfl
    have hscope : dotnetServes headers audience registry = none := by
      rw [dotnetServes, hdotnet]
      rfl
    refine ⟨fun _ => ?_, ?_, fun _ => ragcoreServes_active, fun organisation h => ?_⟩
    · rw [hserves, hscope]
      exact Iff.rfl
    · rw [hragcore, hdotnet]
    · rw [hscope] at h
      cases h

include hpath in
theorem alike_of_sameCallers (h : SameCallers headers path audience registry) :
    CallersReadAlike headers audience registry := by
  have hprincipals := h.principals
  cases hdotnet : PrincipalFactory.tryCreate headers audience with
  | ok dotnet =>
      obtain ⟨tid, oid, htid, hoid, roles, hroles, hheader, hclass, rfl⟩ :=
        PrincipalFactory.tryCreate_eq_ok.mp hdotnet
      cases hragcore : Deps.getPrincipal headers path with
      | error e =>
          rw [hdotnet, hragcore] at hprincipals
          cases hprincipals
      | ok ragcore =>
          obtain ⟨readTid, readOid, hreadTid, hreadOid, rfl⟩ :=
            (Deps.getPrincipal_eq_ok (Deps.audienceFor_of_tryResolve hpath)).mp hragcore
          rw [hdotnet, hragcore] at hprincipals
          have hidentity := congrArg Prod.fst (Option.some.inj hprincipals)
          have hsameTid : readTid = tid := congrArg (fun i => i.tenantId.value) hidentity
          have hsameOid : readOid = oid := congrArg (fun i => i.principalId.value) hidentity
          refine Or.inl ⟨tid, oid, htid, hoid, hsameTid ▸ hreadTid, hsameOid ▸ hreadOid,
            ⟨⟨roles, hroles, hheader⟩, hclass⟩, fun hstaff row hrow => ?_⟩
          refine h.dotnetActive ⟨⟨row.tenantId⟩, ⟨row.entraTid⟩, row.status, .endUserIdentity⟩ ?_
          rw [dotnetServes, hdotnet]
          show tryBindScope registry _ = _
          rw [tryBindScope_of_ne hstaff, hrow]
          rfl
  | error rejection =>
      have hnone : (Deps.getPrincipal headers path).toOption = none := by
        rw [hdotnet] at hprincipals
        exact Option.map_eq_none_iff.mp hprincipals
      refine Or.inr ⟨?_, ?_⟩
      · by_contra hread
        rw [not_or] at hread
        obtain ⟨tid, htid⟩ := Option.ne_none_iff_exists'.mp hread.1
        obtain ⟨oid, hoid⟩ := Option.ne_none_iff_exists'.mp hread.2
        rw [(Deps.getPrincipal_eq_ok (Deps.audienceFor_of_tryResolve hpath)).mpr
          ⟨tid, oid, htid, hoid, rfl⟩] at hnone
        cases hnone
      · by_contra hall
        rw [not_or, not_or, not_not] at hall
        obtain ⟨htenant, hprincipal, ⟨roles, hroles, hheader⟩, hclass⟩ := hall
        obtain ⟨tid, htid⟩ := Option.ne_none_iff_exists'.mp htenant
        obtain ⟨oid, hoid⟩ := Option.ne_none_iff_exists'.mp hprincipal
        rw [PrincipalFactory.tryCreate_eq_ok.mpr
          ⟨tid, oid, htid, hoid, roles, hroles, hheader, hclass, rfl⟩] at hdotnet
        cases hdotnet

end Agreement

/-- On a path of an audience, when the two services admit the same caller. -/
theorem same_callers_iff (headers : IdentityHeaders) {path : List CodePoint}
    {audience : Audience} (hpath : AudienceRouting.tryResolve path = some audience)
    (registry : Registry) :
    SameCallers headers path audience registry ↔ CallersReadAlike headers audience registry :=
  ⟨alike_of_sameCallers hpath, sameCallers_of_alike hpath⟩

namespace SampleCaller

def path : List CodePoint := ofString "/api/customer/v1/views/sessions"

def headers (roles : String) : IdentityHeaders where
  tenantId := some (ofString "00000000-0000-0000-0000-000000000001")
  principalId := some (ofString "00000000-0000-0000-0000-000000000002")
  roles := some (ofString roles)
  credentialClass := some (ofString "delegated")
  clientSurface := none

def registry (status : TenantStatus) : Registry :=
  ⟨[{ tenantId := 7, entraTid := 1, displayName := [], status := status,
      createdAt := ⟨0, zero_lt_tickLimit⟩, updatedAt := ⟨0, zero_lt_tickLimit⟩, version := 1 }],
    List.nodup_singleton _⟩

/-- An end user of an active organisation is the same caller to both. -/
theorem end_user_admitted :
    SameCallers (headers "end_user") path .customer (registry .active) :=
  (same_callers_iff (headers "end_user") (by decide) (registry .active)).mpr
    (Or.inl ⟨1, 2, by decide +kernel, by decide +kernel, by decide +kernel, by decide +kernel,
      ⟨⟨[.endUser], by decide, rfl⟩, rfl⟩, fun _ row hrow => by
        obtain rfl := Option.some.inj hrow
        rfl⟩)

/-- An end user of a suspended organisation is served by the read side alone, and a role
header with a role nobody knows is refused by the read side alone. -/
theorem suspended_served :
    ¬ SameCallers (headers "end_user") path .customer (registry .suspended) ∧
      ¬ SameCallers (headers "end_user,auditor") path .customer (registry .active) := by
  constructor
  · intro h
    have hactive := h.dotnetActive ⟨⟨7⟩, ⟨1⟩, .suspended, .endUserIdentity⟩ (by decide +kernel)
    cases hactive
  · intro h
    have hserved : (ragcoreServes (headers "end_user,auditor") path (registry .active)).isSome =
        true := by decide +kernel
    have hrefused : (dotnetServes (headers "end_user,auditor") .customer
        (registry .active)).isSome = false := by decide +kernel
    rw [(h.customers rfl).mp hserved] at hrefused
    cases hrefused

end SampleCaller

end Synthia
