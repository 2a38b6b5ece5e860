import Synthia.Lib.Urlencoded

/-!
# Screens for self-asserted authority

RagCore's `IdentityHeaderMiddleware` and the screen of the Integrations service's
`IdentityMiddleware`. Both fold a name alike and hold it against a list of their own. The
first looks at every header but the gateway's, and at the names of the query string as they
arrive; the second looks at the names of the query string as an application reads them, on
every path but the probes'.
-/

namespace Synthia

open Text Urlencoded

/-- A request as it arrives. -/
structure RawRequest where
  path : List CodePoint
  headerNames : List (List Byte)
  queryString : List Byte

/-- The problem document a screen answers with. -/
structure Refusal where
  status : Nat
  title : String
  detail : List CodePoint
  instancePath : List CodePoint
  deriving DecidableEq

/-- `name.lower().replace("-", "").replace("_", "")`. -/
def folded (name : List CodePoint) : List CodePoint :=
  (lower name).filter fun c => c ≠ 0x2D ∧ c ≠ 0x5F

/-- `text.removeprefix("x")`. -/
def withoutX : List CodePoint → List CodePoint
  | 0x78 :: rest => rest
  | text => text

/-- `_is_forbidden`, for a list of names. -/
def isForbiddenBy (fields : List String) (name : List CodePoint) : Bool :=
  fields.any (fun field => ofString field == folded name) ||
    fields.any fun field => ofString field == withoutX (folded name)

namespace IdentityHeaderMiddleware

/-- `FORBIDDEN_CLIENT_FIELDS`. -/
def forbiddenClientFields : List String :=
  ["tenant", "tenantid", "tenant_id", "tenant-id", "organisation", "organization", "orgid",
    "org_id", "org-id", "role", "roles", "staffrole", "staff_role", "staff-role", "audience",
    "aud", "principal", "principalid", "principal_id", "oid", "actas", "act_as", "act-as",
    "onbehalfof", "on_behalf_of", "impersonate"]

/-- `IDENTITY_HEADERS`. -/
def identityHeaders : List String :=
  ["X-Idp-Tenant-Id", "X-Idp-Principal-Id", "X-Idp-Roles", "X-Idp-Credential-Class",
    "X-Idp-Client-Surface"]

def isForbidden (name : List CodePoint) : Bool := isForbiddenBy forbiddenClientFields name

/-- A header's name is one of the gateway's, in any case. -/
def isGatewayHeader (name : List Byte) : Bool :=
  identityHeaders.any fun header => lower (ofString header) == lower (latin1 name)

/-- The first header that asserts authority. -/
def selfAssertedHeader (headerNames : List (List Byte)) : Option (List CodePoint) :=
  ((headerNames.filter fun name => !isGatewayHeader name).map latin1).find? isForbidden

/-- `_self_asserted_field`. -/
def selfAssertedField (request : RawRequest) : Option (List CodePoint) :=
  match selfAssertedHeader request.headerNames with
  | some name => some name
  | none => ((pairs (latin1 request.queryString)).map Prod.fst).find? isForbidden

/-- `__call__`, on a request of the `http` scope: the refusal, or nothing where the rest of
the application runs. -/
def call (request : RawRequest) : Option Refusal :=
  (selfAssertedField request).map fun offender =>
    { status := 400
      title := "Self-asserted authority"
      detail := ofString "'" ++ offender ++ ofString ("' MUST NOT be supplied by a client. " ++
        "Organisation, roles and audience are derived from trusted identity at the Gateway " ++
        "and are never request parameters.")
      instancePath := request.path }

end IdentityHeaderMiddleware

namespace IdentityMiddleware

/-- `_FORBIDDEN_CLIENT_FIELDS`. -/
def forbiddenClientFields : List String :=
  ["tenant", "tenantid", "organisation", "organization", "orgid", "role", "roles", "staffrole",
    "audience", "aud", "principal", "principalid", "oid", "actas", "onbehalfof", "impersonate"]

/-- `_EXEMPT_PATHS`. -/
def exemptPaths : List String := ["/health/live", "/health/ready", "/health/startup"]

def isForbidden (name : List CodePoint) : Bool := isForbiddenBy forbiddenClientFields name

/-- The screen of `dispatch`: the refusal, or nothing where the principal is read next. -/
def screen (request : RawRequest) : Option Refusal :=
  if exemptPaths.any fun path => ofString path == request.path then none
  else
    (((parseQsl (latin1 request.queryString)).map Prod.fst).find? isForbidden).map fun name =>
      { status := 400
        title := "Self-asserted authority"
        detail := ofString "'" ++ name ++ ofString ("' MUST NOT be supplied by a client. The " ++
          "organisation is recovered from the durable object an identifier names, never from " ++
          "a request field.")
        instancePath := request.path }

end IdentityMiddleware

end Synthia
