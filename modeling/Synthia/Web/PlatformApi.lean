import Synthia.Lib.Origins

/-!
# Calls of the platform

The browser addresses the platform at one configured URL. `PlatformApiClient` puts it before
every path, and an interceptor adds the access token to the requests whose URL begins with
it, whoever makes them.
-/

namespace Synthia

open Text Origins

structure PlatformApiConfig where
  gatewayOrigin : List CodeUnit

/-- `assertAbsoluteHttpsOrigin` does not throw. -/
def isAbsoluteHttpsOrigin (parseHost : List CodeUnit → Option (List CodeUnit))
    (value : List CodeUnit) : Bool :=
  match originOf parseHost none value with
  | none => false
  | some origin =>
      let isLocalhost := origin.host == units "localhost" || origin.host == units "127.0.0.1"
      origin.scheme == units "https" || (origin.scheme == units "http" && isLocalhost)

/-- A request of `HttpClient`, as interceptors see it. -/
structure HttpCall where
  url : List CodeUnit
  headers : List (List CodeUnit × List CodeUnit) := []
  deriving DecidableEq

/-- `request.clone` with one header set. The case of its name does not matter. -/
def HttpCall.withHeader (request : HttpCall) (name value : List CodeUnit) : HttpCall where
  url := request.url
  headers :=
    (request.headers.filter fun header => header.1.map lowerUnit != name.map lowerUnit) ++
      [(name, value)]

def HttpCall.bearing (request : HttpCall) (token : List CodeUnit) : HttpCall :=
  request.withHeader (units "Authorization") (units "Bearer " ++ token)

/-- What is passed on, with the token that `AuthService` has, if it has one. -/
def authInterceptor (config : PlatformApiConfig) (accessToken : Option (List CodeUnit))
    (request : HttpCall) : HttpCall :=
  if config.gatewayOrigin.isPrefixOf request.url = false then request
  else
    match accessToken with
    | none => request
    | some token => request.bearing token

/-- `PlatformApiClient.url`. -/
def PlatformApiClient.url (config : PlatformApiConfig) (path : List CodeUnit) : List CodeUnit :=
  config.gatewayOrigin.rdropWhile (· == 0x2F) ++
    if path.head? = some 0x2F then path else 0x2F :: path

end Synthia

/-!
## Where the token goes

The token is for requests to the gateway's origin. What is compared is text: the URL of a
request with the configured one. A URL that begins with the configured text and does not go
on with its authority has its origin, whatever follows. One that goes on with it may have
any other, and one that begins with anything else may have the gateway's.

The client's own URLs begin with the configured text unless that ends in two slashes, which
the client takes for one.
-/

namespace Synthia

open Text Origins

variable {parseHost : List CodeUnit → Option (List CodeUnit)} {document : Option Document}
  {config : PlatformApiConfig} {request : HttpCall}

/-- The token goes to the gateway's origin, in every call of the client's and in no other
request. -/
structure GatewayOnly (parseHost : List CodeUnit → Option (List CodeUnit))
    (document : Option Document) (config : PlatformApiConfig) (request : HttpCall) : Prop where
  attached : originOf parseHost document request.url =
      originOf parseHost none config.gatewayOrigin →
    ∀ token, authInterceptor config (some token) request = request.bearing token
  withheld : originOf parseHost document request.url ≠
      originOf parseHost none config.gatewayOrigin →
    ∀ accessToken, authInterceptor config accessToken request = request
  built : ∀ path headers token,
    authInterceptor config (some token) ⟨PlatformApiClient.url config path, headers⟩ =
      HttpCall.bearing ⟨PlatformApiClient.url config path, headers⟩ token

/-- The request goes on with the authority of the configured text, or is read relative to
the document, and is for another origin. -/
def Leaks (parseHost : List CodeUnit → Option (List CodeUnit)) (document : Option Document)
    (config : PlatformApiConfig) (request : HttpCall) : Prop :=
  config.gatewayOrigin <+: request.url ∧
    (GoesOn config.gatewayOrigin request.url ∨
      reading (document.map Document.scheme) config.gatewayOrigin = .document) ∧
    originOf parseHost document request.url ≠ originOf parseHost none config.gatewayOrigin

/-- The request spells the gateway's origin in another way. -/
def Misses (parseHost : List CodeUnit → Option (List CodeUnit)) (document : Option Document)
    (config : PlatformApiConfig) (request : HttpCall) : Prop :=
  ¬ config.gatewayOrigin <+: request.url ∧
    originOf parseHost document request.url = originOf parseHost none config.gatewayOrigin

/-! ### The interceptor -/

theorem authInterceptor_of_begins (h : config.gatewayOrigin <+: request.url)
    (token : List CodeUnit) :
    authInterceptor config (some token) request = request.bearing token := by
  unfold authInterceptor
  rw [if_neg]
  rw [List.isPrefixOf_iff_prefix.mpr h]
  exact Bool.noConfusion

theorem authInterceptor_of_not_begins (h : ¬ config.gatewayOrigin <+: request.url)
    (accessToken : Option (List CodeUnit)) :
    authInterceptor config accessToken request = request := by
  unfold authInterceptor
  rw [if_pos]
  rw [Bool.eq_false_iff]
  exact fun hbegins => h (List.isPrefixOf_iff_prefix.mp hbegins)

/-- Two tokens make two requests, so one of them is not the request as it came. -/
theorem not_all_bearing (request : HttpCall) :
    ¬ ∀ token, request.bearing token = request := by
  intro hall
  have hsame := congrArg HttpCall.headers ((hall []).trans (hall [0x61]).symm)
  have hlast := (List.append_inj' hsame rfl).2
  injection hlast with hheader _
  injection hheader with _ hvalue
  cases List.append_cancel_left hvalue

/-! ### The text and the origin -/

/-- What is configured names an authority of a scheme with origins. -/
theorem accepted_reads {value : List CodeUnit} (h : isAbsoluteHttpsOrigin parseHost value = true) :
    ∃ scheme rest, schemeOf (cleaned value) = some (scheme, rest) ∧
      defaultPort scheme ≠ none ∧ authorityText rest ≠ [] ∧
        reading none value = .authority scheme (authorityText rest) := by
  unfold isAbsoluteHttpsOrigin at h
  cases hscheme : schemeOf (cleaned value) with
  | none =>
      have hreading : reading none value = .none := by
        unfold reading
        rw [hscheme]
      unfold originOf at h
      simp only [Option.map_none, hreading] at h
      cases h
  | some pair =>
      obtain ⟨scheme, rest⟩ := pair
      by_cases hport : defaultPort scheme = none
      · have hreading : reading none value = .none := by
          unfold reading
          rw [hscheme]
          exact if_pos hport
        unfold originOf at h
        simp only [Option.map_none, hreading] at h
        cases h
      · have hreading : reading none value = .authority scheme (authorityText rest) := by
          unfold reading
          rw [hscheme]
          dsimp only
          rw [if_neg hport, if_neg fun hboth => nomatch hboth.1]
        refine ⟨scheme, rest, rfl, hport, ?_, hreading⟩
        intro hnil
        unfold originOf at h
        simp only [Option.map_none, hreading, hnil] at h
        cases h

/-- What does not go on with the configured authority has its origin. -/
theorem origin_of_begins (hconfig : isAbsoluteHttpsOrigin parseHost config.gatewayOrigin = true)
    (hbegins : config.gatewayOrigin <+: request.url)
    (hstays : ¬ GoesOn config.gatewayOrigin request.url)
    (hown : reading (document.map Document.scheme) config.gatewayOrigin ≠ .document) :
    originOf parseHost document request.url = originOf parseHost none config.gatewayOrigin := by
  obtain ⟨scheme, rest, hscheme, hport, hauthority, hreading⟩ := accepted_reads hconfig
  obtain ⟨more, hmore⟩ := hbegins
  rw [← hmore] at hstays ⊢
  have hsame : reading (document.map Document.scheme) (config.gatewayOrigin ++ more) =
      reading (document.map Document.scheme) config.gatewayOrigin :=
    reading_append hscheme hauthority more hstays
  have hplain : reading (document.map Document.scheme) config.gatewayOrigin =
      .authority scheme (authorityText rest) := by
    unfold reading at hown ⊢
    rw [hscheme] at hown ⊢
    dsimp only at hown ⊢
    rw [if_neg hport] at hown ⊢
    by_cases hboth : document.map Document.scheme = some scheme ∧ twoSlashes rest = false
    · exact absurd (if_pos hboth) hown
    · exact if_neg hboth
  unfold originOf
  rw [hsame, hplain, Option.map_none, hreading]

/-! ### The client's URLs -/

/-- What is put before a path, and the slash that is always behind it. -/
theorem url_slash (path : List CodeUnit) :
    config.gatewayOrigin.rdropWhile (· == 0x2F) ++ [0x2F] <+:
      PlatformApiClient.url config path := by
  unfold PlatformApiClient.url
  rw [List.prefix_append_right_inj]
  cases path with
  | nil => exact List.prefix_rfl
  | cons c path =>
      by_cases hslash : c = 0x2F
      · subst hslash
        exact ⟨path, rfl⟩
      · rw [if_neg (by simpa using hslash)]
        exact ⟨c :: path, rfl⟩

theorem url_begins (h : ¬ [0x2F, 0x2F] <:+ config.gatewayOrigin) (path : List CodeUnit) :
    config.gatewayOrigin <+: PlatformApiClient.url config path := by
  refine List.IsPrefix.trans ?_ (url_slash path)
  generalize config.gatewayOrigin = text at h
  induction text using List.reverseRecOn with
  | nil => exact List.nil_prefix
  | append_singleton init c _ =>
      by_cases hslash : c = 0x2F
      · subst hslash
        -- Nothing else is dropped with the slash at the end.
        have hinit : init.rdropWhile (· == (0x2F : CodeUnit)) = init := by
          rw [List.rdropWhile_eq_self_iff]
          intro hne hlast
          have hinit := List.dropLast_append_getLast hne
          rw [beq_iff_eq] at hlast
          rw [hlast] at hinit
          refine h ⟨init.dropLast, ?_⟩
          calc init.dropLast ++ [0x2F, 0x2F]
              = init.dropLast ++ [0x2F] ++ [0x2F] := (List.append_assoc _ [0x2F] [0x2F]).symm
            _ = init ++ [0x2F] := by rw [hinit]
        have hslashed : init ++ [0x2F] =
            (init ++ [0x2F]).rdropWhile (· == (0x2F : CodeUnit)) ++ [0x2F] := by
          rw [List.rdropWhile_concat_pos _ _ _ (by simp), hinit]
        exact ⟨[], (List.append_nil _).trans hslashed⟩
      · rw [List.rdropWhile_concat_neg _ _ _ (by simpa using hslash)]
        exact List.prefix_append _ _

/-- Of two slashes at the end one is lost. -/
theorem url_root_not_begins (h : [0x2F, 0x2F] <:+ config.gatewayOrigin) :
    ¬ config.gatewayOrigin <+: PlatformApiClient.url config [] := by
  obtain ⟨before, hbefore⟩ := h
  intro hbegins
  have hlength := hbegins.length_le
  unfold PlatformApiClient.url at hlength
  rw [← hbefore, show before ++ [(0x2F : CodeUnit), 0x2F] = before ++ [0x2F] ++ [0x2F] by simp,
    List.rdropWhile_concat_pos _ _ _ (by simp), List.rdropWhile_concat_pos _ _ _ (by simp)]
    at hlength
  have hle := (List.rdropWhile_prefix (· == (0x2F : CodeUnit)) before).length_le
  simp at hlength
  omega

/-- **Where the token goes.** With a configured URL that passes its check, the token goes to
the gateway's origin, and to all the client's calls, if and only if: the request does not go
on with the configured authority to another origin, does not spell the gateway's origin in
another way, and what is configured does not end in two slashes. -/
theorem gatewayOnly_iff
    (hconfig : isAbsoluteHttpsOrigin parseHost config.gatewayOrigin = true) :
    GatewayOnly parseHost document config request ↔
      ¬ Leaks parseHost document config request ∧ ¬ Misses parseHost document config request ∧
        ¬ [0x2F, 0x2F] <:+ config.gatewayOrigin := by
  constructor
  · intro honly
    refine ⟨?_, ?_, ?_⟩
    · intro hleaks
      refine not_all_bearing request fun token => ?_
      rw [← authInterceptor_of_begins hleaks.1]
      exact honly.withheld hleaks.2.2 _
    · intro hmisses
      refine not_all_bearing request fun token => ?_
      rw [← honly.attached hmisses.2]
      exact authInterceptor_of_not_begins hmisses.1 _
    · intro hslashes
      refine not_all_bearing ⟨PlatformApiClient.url config [], []⟩ fun token => ?_
      rw [← honly.built]
      exact authInterceptor_of_not_begins (url_root_not_begins hslashes) _
  · intro h
    obtain ⟨hleaks, hmisses, hslashes⟩ := h
    refine ⟨?_, ?_, ?_⟩
    · intro hsame token
      refine authInterceptor_of_begins ?_ token
      by_contra hother
      exact hmisses ⟨hother, hsame⟩
    · intro hother accessToken
      refine authInterceptor_of_not_begins (fun hbegins => hother ?_) accessToken
      refine origin_of_begins hconfig hbegins (fun hgoes => ?_) (fun hdocument => ?_)
      · exact hleaks ⟨hbegins, .inl hgoes, hother⟩
      · exact hleaks ⟨hbegins, .inr hdocument, hother⟩
    · intro path headers token
      exact authInterceptor_of_begins (url_begins hslashes path) token

/-- A parser of hosts, on names in lower case. -/
def plainHost (text : List CodeUnit) : Option (List CodeUnit) := some text

theorem gatewayOnly_iff_sample :
    GatewayOnly plainHost none ⟨units "https://api.example"⟩
        ⟨units "https://api.example/v1/tickets", []⟩ ↔
      ¬ Leaks plainHost none ⟨units "https://api.example"⟩
          ⟨units "https://api.example/v1/tickets", []⟩ ∧
        ¬ Misses plainHost none ⟨units "https://api.example"⟩
            ⟨units "https://api.example/v1/tickets", []⟩ ∧
          ¬ [0x2F, 0x2F] <:+ units "https://api.example" :=
  gatewayOnly_iff (by decide +kernel)

/-- A host whose name begins with the gateway's receives the token. -/
theorem not_gatewayOnly_longer_host :
    ¬ ∀ (parseHost : List CodeUnit → Option (List CodeUnit)) (document : Option Document)
      (config : PlatformApiConfig) (request : HttpCall),
      isAbsoluteHttpsOrigin parseHost config.gatewayOrigin = true →
        GatewayOnly parseHost document config request := by
  intro hall
  have honly := hall plainHost none ⟨units "https://api.example"⟩
    ⟨units "https://api.example.evil.com/", []⟩ (by decide +kernel)
  have hsame := honly.withheld (by decide +kernel) (some [])
  revert hsame
  decide +kernel

end Synthia
