import Synthia.Desktop.RendererProtocol
import Synthia.Lib.Exceptions
import Synthia.Lib.Origins

/-!
# The desktop host

`config`, `navigation`, `csp`, `ipc-guard` and the handler table of `app-shell`, as `index`
wires them: which origins the host was configured with, where its window may go, what it
hands to the operating system, which headers a response has, and which messages of the
renderer it answers.

The parser of URLs is the platform's. Of what it hands out, no more is used than that a
protocol ends at its colon, that a URL of a scheme with an authority has the origin its
protocol and host spell, and that any other has none, or that of the URL a blob was made at.

Electron asks before the page goes somewhere, and before a redirect; it does not ask when
the page moves along its history, nor within a document.
-/

namespace Synthia

open Text RendererProtocol

/-- The protocols of the URLs that have an origin of their own. -/
def tupleProtocols : List (List CodeUnit) :=
  [units "https:", units "wss:", units "http:", units "ws:", units "ftp:"]

/-- A parsed `URL`, with what the host reads of it besides. -/
structure HostUrl extends Url where
  username : List CodeUnit
  password : List CodeUnit
  search : List CodeUnit
  hash : List CodeUnit
  colon : ∃ scheme, protocol = scheme ++ [0x3A] ∧ 0x3A ∉ scheme
  tuple : protocol ∈ tupleProtocols → origin = protocol ++ units "//" ++ host
  opaqueOrBlob : protocol ∉ tupleProtocols → origin = units "null" ∨
    ∃ inner ∈ tupleProtocols, (inner ++ units "//").isPrefixOf origin = true

def rendererEntryUrl : List CodeUnit := rendererOrigin ++ units "/" ++ indexDocument

/-- The parser, which reads the entry document's URL as what it says. -/
structure UrlParser where
  parse : List CodeUnit → Option HostUrl
  entry : ∃ url, parse rendererEntryUrl = some url ∧ url.protocol = rendererScheme ∧
    url.host = rendererHost

namespace DesktopHost

/-! ## Configuration -/

structure HostConfig where
  gatewayOrigin : List CodeUnit
  realtimeOrigin : List CodeUnit
  authorityOrigin : List CodeUnit
  deriving DecidableEq

structure HostConfigurationError where
  message : List CodeUnit
  deriving DecidableEq

def parseOrigin (parser : UrlParser) (raw : List CodeUnit) (schemes : List (List CodeUnit))
    (label : List CodeUnit) : Except HostConfigurationError (List CodeUnit) :=
  match parser.parse raw with
  | none => .error ⟨label ++ units " is not a URL: " ++ stringify raw⟩
  | some url =>
      if url.protocol ∉ schemes then
        .error ⟨label ++ units " must use " ++ (units " or ").intercalate schemes ++
          units " — got " ++ url.protocol⟩
      else if url.username ≠ [] ∨ url.password ≠ [] then
        .error ⟨label ++ units " must not carry credentials"⟩
      else if url.search ≠ [] ∨ url.hash ≠ [] then
        .error ⟨label ++ units " must be a bare origin, with no query or fragment"⟩
      else if url.pathname ≠ units "/" ∧ url.pathname ≠ [] then
        .error ⟨label ++ units " must be a bare origin, with no path"⟩
      else if originOf url.toUrl = units "null" then
        .error ⟨label ++ units " has an opaque origin"⟩
      else .ok (originOf url.toUrl)

/-- The variables the host reads. -/
structure Environment where
  gatewayOrigin : Option (List CodeUnit) := none
  realtimeOrigin : Option (List CodeUnit) := none
  authorityOrigin : Option (List CodeUnit) := none

def defaultConfig : HostConfig where
  gatewayOrigin := units "https://gateway.synthia.invalid"
  realtimeOrigin := units "wss://realtime.synthia.invalid"
  authorityOrigin := units "https://login.microsoftonline.com"

def loadHostConfig (parser : UrlParser) (env : Environment) :
    Except HostConfigurationError HostConfig := do
  let gatewayOrigin ← parseOrigin parser
    (env.gatewayOrigin.getD defaultConfig.gatewayOrigin) [units "https:"]
    (units "SYNTHIA_GATEWAY_ORIGIN")
  let realtimeOrigin ← parseOrigin parser
    (env.realtimeOrigin.getD defaultConfig.realtimeOrigin) [units "wss:"]
    (units "SYNTHIA_REALTIME_ORIGIN")
  let authorityOrigin ← parseOrigin parser
    (env.authorityOrigin.getD defaultConfig.authorityOrigin) [units "https:"]
    (units "SYNTHIA_AUTHORITY_ORIGIN")
  return ⟨gatewayOrigin, realtimeOrigin, authorityOrigin⟩

/-! ## Navigation -/

def allowedRemoteSchemes : List (List CodeUnit) := [units "https:", units "wss:"]

def externalScheme : List CodeUnit := units "https:"

def allowedRemoteOrigins (config : HostConfig) : List (List CodeUnit) :=
  [config.gatewayOrigin, config.authorityOrigin, config.realtimeOrigin]

/-- `parse`, which takes the empty text for none. -/
def parseUrl (parser : UrlParser) (rawUrl : List CodeUnit) : Option HostUrl :=
  if rawUrl = [] then none else parser.parse rawUrl

def isRendererOrigin (parser : UrlParser) (rawUrl : List CodeUnit) : Bool :=
  match parseUrl parser rawUrl with
  | none => false
  | some url => originOf url.toUrl == rendererOrigin

def isAllowedRemote (parser : UrlParser) (config : HostConfig) (rawUrl : List CodeUnit) :
    Bool :=
  match parseUrl parser rawUrl with
  | none => false
  | some url =>
      if url.protocol ∉ allowedRemoteSchemes then false
      else decide (originOf url.toUrl ∈ allowedRemoteOrigins config)

def isNavigationAllowed (parser : UrlParser) (config : HostConfig) (rawUrl : List CodeUnit) :
    Bool :=
  isRendererOrigin parser rawUrl || isAllowedRemote parser config rawUrl

def isExternalOpenAllowed (parser : UrlParser) (config : HostConfig)
    (rawUrl : List CodeUnit) : Bool :=
  match parseUrl parser rawUrl with
  | none => false
  | some url =>
      if url.protocol ≠ externalScheme then false
      else decide (originOf url.toUrl ∈ allowedRemoteOrigins config)

/-- `decideWindowOpen`: whether the destination goes to the handler besides. No window is
ever opened. -/
def decideWindowOpen (parser : UrlParser) (config : HostConfig) (rawUrl : List CodeUnit) :
    Bool :=
  isExternalOpenAllowed parser config rawUrl

/-! ## The content security policy -/

def cspHeader : List CodeUnit := units "Content-Security-Policy"

def staticDirectives : List (List CodeUnit) :=
  [units "default-src 'self'", units "script-src 'self'", units "img-src 'self' data:",
    units "font-src 'self'", units "frame-ancestors 'none'", units "frame-src 'none'",
    units "child-src 'none'", units "worker-src 'self'", units "form-action 'self'",
    units "base-uri 'self'", units "object-src 'none'", units "manifest-src 'self'",
    units "upgrade-insecure-requests"]

def buildContentSecurityPolicy (config : HostConfig) (nonce : Option (List CodeUnit)) :
    List CodeUnit :=
  let connectSrc := (units " ").intercalate [units "connect-src 'self'", config.gatewayOrigin,
    config.realtimeOrigin, config.authorityOrigin]
  let styleSrc := match nonce with
    | none => units "style-src 'self'"
    | some nonce => units "style-src 'self' 'nonce-" ++ nonce ++ units "'"
  (units "; ").intercalate (staticDirectives ++ [styleSrc, connectSrc,
    units "navigate-to " ++ rendererOrigin ++ units " " ++ config.authorityOrigin])

/-- An object's entries: names, all different, with their values. -/
abbrev ResponseHeaders := List (List CodeUnit × List (List CodeUnit))

/-- Two names of one header. No other letter's lower case is one of this name's. -/
def namesPolicy (name : List CodeUnit) : Bool :=
  name.map Origins.lowerUnit == cspHeader.map Origins.lowerUnit

def withContentSecurityPolicy (headers : ResponseHeaders) (config : HostConfig)
    (nonce : Option (List CodeUnit)) : ResponseHeaders :=
  headers.filter (fun header => !namesPolicy header.1) ++
    [(cspHeader, [buildContentSecurityPolicy config nonce])]

def isPolicySetAtSource (parser : UrlParser) (url : List CodeUnit) : Bool :=
  match parser.parse url with
  | none => false
  | some url => url.protocol == rendererScheme

/-- The listener of `applyContentSecurityPolicy`. -/
def onHeadersReceived (parser : UrlParser) (config : HostConfig) (url : List CodeUnit)
    (headers : ResponseHeaders) : ResponseHeaders :=
  if isPolicySetAtSource parser url then headers
  else withContentSecurityPolicy headers config none

/-! ## Messages -/

inductive IpcChannel where
  | getVersion
  | getPlatform
  | getEndpoints
  | describeSessionBoundary
  deriving DecidableEq, Repr

/-- `IPC_CHANNELS`. -/
def IpcChannel.all : List IpcChannel :=
  [.getVersion, .getPlatform, .getEndpoints, .describeSessionBoundary]

def IpcChannel.value : IpcChannel → List CodeUnit
  | .getVersion => units "host:getVersion"
  | .getPlatform => units "host:getPlatform"
  | .getEndpoints => units "host:getEndpoints"
  | .describeSessionBoundary => units "host:describeSessionBoundary"

structure SenderLike where
  url : Option (List CodeUnit) := none
  isMainFrame : Option Bool := none

inductive IpcRejectionReason where
  | untrustedSender
  | subframeSender
  | unknownChannel
  | invalidArguments
  deriving DecidableEq, Repr

def trustedIpcOrigins : List (List CodeUnit) := [rendererOrigin]

def isSenderTrusted (parser : UrlParser) (sender : SenderLike) : Bool :=
  if sender.isMainFrame = some false then false
  else
    match sender.url with
    | none => false
    | some url =>
        if url = [] then false
        else
          match parser.parse url with
          | none => false
          | some url =>
              if originOf url.toUrl = units "null" then false
              else decide (originOf url.toUrl ∈ trustedIpcOrigins)

/-- `ARGUMENT_VALIDATORS`: no channel takes arguments. -/
def areArgumentsValid {α : Type} (_ : IpcChannel) (args : List α) : Bool :=
  args.length == 0

/-- The channel of that name, where it is one: `isIpcChannel`. -/
def channelOf (name : List CodeUnit) : Option IpcChannel :=
  IpcChannel.all.find? fun channel => channel.value == name

def validateInvocation {α : Type} (channel : List CodeUnit) (args : List α) :
    Except IpcRejectionReason IpcChannel :=
  match channelOf channel with
  | none => .error .unknownChannel
  | some channel =>
      if areArgumentsValid channel args then .ok channel else .error .invalidArguments

def guardInvocation {α : Type} (parser : UrlParser) (sender : SenderLike)
    (channel : List CodeUnit) (args : List α) : Except IpcRejectionReason IpcChannel :=
  if isSenderTrusted parser sender then validateInvocation channel args
  else .error (if sender.isMainFrame = some false then .subframeSender else .untrustedSender)

structure HostFacts where
  version : List CodeUnit
  platform : List CodeUnit
  deriving DecidableEq

inductive Reply where
  | version (version : List CodeUnit)
  | platform (platform : List CodeUnit)
  | endpoints (endpoints : HostConfig)
  | sessionBoundary
  deriving DecidableEq

/-- The table of `buildHandlers`. -/
def handler (facts : HostFacts) (config : HostConfig) : IpcChannel → Reply
  | .getVersion => .version facts.version
  | .getPlatform => .platform facts.platform
  | .getEndpoints => .endpoints config
  | .describeSessionBoundary => .sessionBoundary

def guarded {α : Type} (parser : UrlParser) (facts : HostFacts) (config : HostConfig)
    (channel : IpcChannel) (sender : SenderLike) (args : List α) :
    Except IpcRejectionReason Reply :=
  (guardInvocation parser sender channel.value args).map fun _ => handler facts config channel

/-! ## A run of the host -/

/-- The frame a message comes from: gone by now, the window's own, or one inside it. -/
inductive Frame where
  | gone
  | top
  | inside (url : List CodeUnit)

/-- What is asked of the host, or happens to its window. -/
inductive HostEvent (α : Type) where
  | navigate (url : List CodeUnit)
  | redirect (url : List CodeUnit)
  | traverse (index : Nat)
  | withinDocument (url : List CodeUnit)
  | windowOpen (url : List CodeUnit)
  | invoke (channel : List CodeUnit) (frame : Frame) (args : List α)
  | received (url : List CodeUnit) (headers : ResponseHeaders)

/-- A message that was answered, and where the window was. -/
structure Answered (α : Type) where
  channel : IpcChannel
  frame : Frame
  args : List α
  location : List CodeUnit
  reply : Reply

structure Window (α : Type) where
  location : List CodeUnit
  /-- Everywhere it has been. -/
  history : List (List CodeUnit)
  /-- What `shell.openExternal` was called with. -/
  opened : List (List CodeUnit)
  answered : List (Answered α)
  /-- The responses the page was given, each with its URL. -/
  responses : List (List CodeUnit × ResponseHeaders)

namespace Window

variable {α : Type}

def goTo (window : Window α) (url : List CodeUnit) : Window α :=
  { window with location := url, history := url :: window.history }

/-- The window as `createWindow` loads it. -/
def initial : Window α where
  location := rendererEntryUrl
  history := [rendererEntryUrl]
  opened := []
  answered := []
  responses := []

/-- What `index` makes of the frame of a message. -/
def senderOf (window : Window α) : Frame → SenderLike
  | .gone => {}
  | .top => { url := some window.location, isMainFrame := some true }
  | .inside url => { url := some url, isMainFrame := some false }

/-- One URL is the same document's as the other, or another of its origin. -/
def sameOrigin (parser : UrlParser) (url other : List CodeUnit) : Bool :=
  match parser.parse url, parser.parse other with
  | some url, some other =>
      url.protocol == other.protocol && url.host == other.host && url.origin == other.origin
  | _, _ => false

def step (parser : UrlParser) (facts : HostFacts) (config : HostConfig) (window : Window α) :
    HostEvent α → Window α
  | .navigate url | .redirect url =>
      if isNavigationAllowed parser config url then window.goTo url else window
  | .traverse index =>
      match window.history[index]? with
      | none => window
      | some url => { window with location := url }
  | .withinDocument url =>
      if sameOrigin parser window.location url then window.goTo url else window
  | .windowOpen url =>
      -- The handler asks again, at the one place that hands a text to the system.
      if decideWindowOpen parser config url && isExternalOpenAllowed parser config url then
        { window with opened := url :: window.opened }
      else window
  | .invoke channel frame args =>
      -- Only the channels of the contract are registered.
      match channelOf channel with
      | none => window
      | some channel =>
          match guarded parser facts config channel (window.senderOf frame) args with
          | .error _ => window
          | .ok reply =>
              { window with
                answered := ⟨channel, frame, args, window.location, reply⟩ :: window.answered }
  | .received url headers =>
      { window with
        responses := (url, onHeadersReceived parser config url headers) :: window.responses }

end Window

/-- The window after a run of the host that was started in that environment. -/
def run {α : Type} (parser : UrlParser) (facts : HostFacts) (env : Environment)
    (events : List (HostEvent α)) : Except HostConfigurationError (HostConfig × Window α) :=
  (loadHostConfig parser env).map fun config =>
    (config, events.foldl (Window.step parser facts config) Window.initial)

end DesktopHost

end Synthia

/-!
## The desktop host stays where it was put

Whatever the page does, the window is at the renderer's own URL or at one of the three
configured origins, each under its own scheme. What the operating system is handed is an
`https` URL of the gateway or of the authority. A message is answered only to the window's
own frame while the window is at the renderer, so the page signed in at, which the window
may show, is told nothing. And every response from outside the bundle has the host's policy
and no other.

The checks compare one text, so each rests on what spells it: an origin that reads
`app://renderer` is no origin of a scheme with an authority, and of a URL without an origin
the text falls apart at the first colon.
-/

namespace Synthia

open Text RendererProtocol

namespace DesktopHost

variable {parser : UrlParser} {config : HostConfig} {url : HostUrl} {rawUrl : List CodeUnit}

/-! ### Origins -/

theorem no_tuple_starts_null : ∀ protocol ∈ tupleProtocols,
    (protocol ++ units "//").isPrefixOf (units "null") = false ∧
      (protocol ++ units "//").isPrefixOf rendererOrigin = false := by
  decide

/-- The origin of a URL whose scheme has an authority spells its protocol and host. -/
theorem originOf_tuple (h : url.protocol ∈ tupleProtocols) :
    originOf url.toUrl = url.protocol ++ units "//" ++ url.host := by
  have hne : url.origin ≠ units "null" := by
    intro hnull
    have hstarts : (url.protocol ++ units "//").isPrefixOf (units "null") = true := by
      rw [← hnull, url.tuple h]
      exact List.isPrefixOf_iff_prefix.mpr (List.prefix_append _ _)
    rw [(no_tuple_starts_null _ h).1] at hstarts
    cases hstarts
  rw [originOf, if_pos hne, url.tuple h]

/-- Only the renderer's own URLs have the renderer's origin. -/
theorem originOf_renderer (h : originOf url.toUrl = rendererOrigin) :
    url.protocol = rendererScheme ∧ url.host = rendererHost := by
  have hnot : ∀ inner ∈ tupleProtocols, ∀ origin : List CodeUnit,
      (inner ++ units "//").isPrefixOf origin = true → origin ≠ rendererOrigin := by
    intro inner hinner origin hstarts heq
    rw [heq, (no_tuple_starts_null inner hinner).2] at hstarts
    cases hstarts
  by_cases htuple : url.protocol ∈ tupleProtocols
  · refine absurd h (hnot url.protocol htuple _ ?_)
    rw [originOf_tuple htuple]
    exact List.isPrefixOf_iff_prefix.mpr (List.prefix_append _ _)
  · rw [originOf] at h
    rcases url.opaqueOrBlob htuple with hnull | ⟨inner, hinner, hstarts⟩
    · rw [if_neg (not_not.mpr hnull)] at h
      split at h
      · exact absurd h (by decide)
      · obtain ⟨scheme, hscheme, hcolon⟩ := url.colon
        rw [hscheme, List.append_assoc, List.append_assoc] at h
        have hsplit : scheme ++ 0x3A :: (units "//" ++ url.host) =
            units "app" ++ 0x3A :: (units "//" ++ rendererHost) := h
        obtain ⟨rfl, hbehind⟩ := Paths.cut_inj hcolon (by decide) hsplit
        exact ⟨hscheme, List.append_cancel_left hbehind⟩
    · split at h
      · exact absurd h (hnot inner hinner _ hstarts)
      · next hnull => 
        rw [not_not.mp hnull, (no_tuple_starts_null inner hinner).1] at hstarts
        cases hstarts

/-! ### Configuration -/

/-- The text is the origin of a URL of that protocol, with no credentials and nothing behind
its host. -/
def Names (parser : UrlParser) (protocol raw origin : List CodeUnit) : Prop :=
  ∃ url, parser.parse raw = some url ∧ url.protocol = protocol ∧
    origin = protocol ++ units "//" ++ url.host ∧
    url.username = [] ∧ url.password = [] ∧ url.search = [] ∧ url.hash = [] ∧
    (url.pathname = units "/" ∨ url.pathname = [])

theorem parseOrigin_ok {raw protocol label origin : List CodeUnit}
    (hprotocol : protocol ∈ tupleProtocols)
    (h : parseOrigin parser raw [protocol] label = .ok origin) :
    Names parser protocol raw origin := by
  rw [parseOrigin] at h
  split at h
  · cases h
  · next url hparse =>
      split at h
      · cases h
      · next hscheme =>
          split at h
          · cases h
          · next hcredentials =>
              split at h
              · cases h
              · next hbare =>
                  split at h
                  · cases h
                  · next hpath =>
                      split at h
                      · cases h
                      · injection h with h
                        have hsame : url.protocol = protocol := by
                          simpa using hscheme
                        have htuple : url.protocol ∈ tupleProtocols := by
                          rw [hsame]
                          exact hprotocol
                        rw [originOf_tuple htuple, hsame] at h
                        simp only [not_or, not_not, not_and_or] at hcredentials hbare hpath
                        exact ⟨url, hparse, hsame, h.symm, hcredentials.1, hcredentials.2,
                          hbare.1, hbare.2, hpath⟩

/-- Each origin is the one its variable names, or the default's. -/
structure Configured (parser : UrlParser) (env : Environment) (config : HostConfig) : Prop where
  gateway : Names parser (units "https:")
    (env.gatewayOrigin.getD defaultConfig.gatewayOrigin) config.gatewayOrigin
  realtime : Names parser (units "wss:")
    (env.realtimeOrigin.getD defaultConfig.realtimeOrigin) config.realtimeOrigin
  authority : Names parser (units "https:")
    (env.authorityOrigin.getD defaultConfig.authorityOrigin) config.authorityOrigin

theorem loadHostConfig_ok {env : Environment} (h : loadHostConfig parser env = .ok config) :
    Configured parser env config := by
  obtain ⟨gatewayOrigin, hgateway, h⟩ := Exceptions.bind_eq_ok.mp h
  obtain ⟨realtimeOrigin, hrealtime, h⟩ := Exceptions.bind_eq_ok.mp h
  obtain ⟨authorityOrigin, hauthority, h⟩ := Exceptions.bind_eq_ok.mp h
  injection h with h
  subst h
  exact ⟨parseOrigin_ok (by decide) hgateway, parseOrigin_ok (by decide) hrealtime,
    parseOrigin_ok (by decide) hauthority⟩

/-! ### Where the window may be -/

/-- The entry document, or another of the renderer's own. -/
def AtRenderer (parser : UrlParser) (rawUrl : List CodeUnit) : Prop :=
  ∃ url, parser.parse rawUrl = some url ∧ url.protocol = rendererScheme ∧
    url.host = rendererHost

/-- At an origin of the configuration, under its own scheme. -/
def AtPlatform (parser : UrlParser) (config : HostConfig) (rawUrl : List CodeUnit) : Prop :=
  ∃ url, parser.parse rawUrl = some url ∧
    (url.protocol = units "https:" ∧
        (url.origin = config.gatewayOrigin ∨ url.origin = config.authorityOrigin) ∨
      url.protocol = units "wss:" ∧ url.origin = config.realtimeOrigin)

def Permitted (parser : UrlParser) (config : HostConfig) (rawUrl : List CodeUnit) : Prop :=
  AtRenderer parser rawUrl ∨ AtPlatform parser config rawUrl

theorem parseUrl_some (h : parseUrl parser rawUrl = some url) :
    parser.parse rawUrl = some url := by
  rw [parseUrl] at h
  split at h
  · cases h
  · exact h

theorem isRendererOrigin_ok (h : isRendererOrigin parser rawUrl = true) :
    AtRenderer parser rawUrl := by
  rw [isRendererOrigin] at h
  split at h
  · cases h
  · next url hparse =>
      obtain ⟨hprotocol, hhost⟩ := originOf_renderer (beq_iff_eq.mp h)
      exact ⟨url, parseUrl_some hparse, hprotocol, hhost⟩

/-- An origin of a URL is none that was configured under another protocol. -/
theorem Names.protocol_of_origin {protocol raw origin : List CodeUnit}
    (h : Names parser protocol raw origin) (htuple : url.protocol ∈ tupleProtocols)
    (horigin : url.origin = origin) : url.protocol = protocol := by
  obtain ⟨own, -, hown, hspelled, -⟩ := h
  obtain ⟨scheme, hscheme, hcolon⟩ := url.colon
  obtain ⟨scheme', hscheme', hcolon'⟩ := own.colon
  rw [hspelled, url.tuple htuple, ← hown, hscheme, hscheme', List.append_assoc,
    List.append_assoc, List.append_assoc, List.append_assoc] at horigin
  obtain ⟨hsame, -⟩ := Paths.cut_inj hcolon hcolon' horigin
  rw [← hown, hscheme, hscheme', hsame]

section Configured

variable {env : Environment}

theorem https_of_allowed (hconfig : Configured parser env config)
    (hprotocol : url.protocol = units "https:")
    (h : originOf url.toUrl ∈ allowedRemoteOrigins config) :
    url.origin = config.gatewayOrigin ∨ url.origin = config.authorityOrigin := by
  have htuple : url.protocol ∈ tupleProtocols := by
    rw [hprotocol]
    decide
  rw [originOf_tuple htuple, ← url.tuple htuple] at h
  simp only [allowedRemoteOrigins, List.mem_cons, List.not_mem_nil, or_false] at h
  rcases h with h | h | h
  · exact .inl h
  · exact .inr h
  · have hother := hconfig.realtime.protocol_of_origin htuple h
    rw [hprotocol] at hother
    exact absurd hother (by decide)

theorem wss_of_allowed (hconfig : Configured parser env config)
    (hprotocol : url.protocol = units "wss:")
    (h : originOf url.toUrl ∈ allowedRemoteOrigins config) :
    url.origin = config.realtimeOrigin := by
  have htuple : url.protocol ∈ tupleProtocols := by
    rw [hprotocol]
    decide
  have hnot : ∀ raw origin, Names parser (units "https:") raw origin →
      url.origin ≠ origin := by
    intro raw origin hnames horigin
    have hother := hnames.protocol_of_origin htuple horigin
    rw [hprotocol] at hother
    exact absurd hother (by decide)
  rw [originOf_tuple htuple, ← url.tuple htuple] at h
  simp only [allowedRemoteOrigins, List.mem_cons, List.not_mem_nil, or_false] at h
  rcases h with h | h | h
  · exact absurd h (hnot _ _ hconfig.gateway)
  · exact absurd h (hnot _ _ hconfig.authority)
  · exact h

theorem isAllowedRemote_ok (hconfig : Configured parser env config)
    (h : isAllowedRemote parser config rawUrl = true) : AtPlatform parser config rawUrl := by
  rw [isAllowedRemote] at h
  split at h
  · cases h
  · next url hparse =>
      split at h
      · cases h
      · next hscheme =>
          refine ⟨url, parseUrl_some hparse, ?_⟩
          simp only [allowedRemoteSchemes, List.mem_cons, List.not_mem_nil, or_false,
            not_not] at hscheme
          rcases hscheme with hhttps | hwss
          · exact .inl ⟨hhttps, https_of_allowed hconfig hhttps (of_decide_eq_true h)⟩
          · exact .inr ⟨hwss, wss_of_allowed hconfig hwss (of_decide_eq_true h)⟩

theorem isNavigationAllowed_ok (hconfig : Configured parser env config)
    (h : isNavigationAllowed parser config rawUrl = true) : Permitted parser config rawUrl := by
  rw [isNavigationAllowed, Bool.or_eq_true] at h
  rcases h with h | h
  · exact .inl (isRendererOrigin_ok h)
  · exact .inr (isAllowedRemote_ok hconfig h)

/-- What the operating system may be handed. -/
def Handable (parser : UrlParser) (config : HostConfig) (rawUrl : List CodeUnit) : Prop :=
  ∃ url, parser.parse rawUrl = some url ∧ url.protocol = units "https:" ∧
    (url.origin = config.gatewayOrigin ∨ url.origin = config.authorityOrigin)

theorem isExternalOpenAllowed_ok (hconfig : Configured parser env config)
    (h : isExternalOpenAllowed parser config rawUrl = true) :
    Handable parser config rawUrl := by
  rw [isExternalOpenAllowed] at h
  split at h
  · cases h
  · next url hparse =>
      split at h
      · cases h
      · next hscheme =>
          have hprotocol : url.protocol = units "https:" := not_not.mp hscheme
          exact ⟨url, parseUrl_some hparse, hprotocol,
            https_of_allowed hconfig hprotocol (of_decide_eq_true h)⟩

end Configured

/-- A place of the same origin is permitted where the first is. -/
theorem Permitted.sameOrigin {other : List CodeUnit} (h : Permitted parser config rawUrl)
    (hsame : Window.sameOrigin parser rawUrl other = true) :
    Permitted parser config other := by
  rw [Window.sameOrigin] at hsame
  split at hsame
  · next own next hown hnext =>
      simp only [Bool.and_eq_true, beq_iff_eq] at hsame
      obtain ⟨⟨hprotocol, hhost⟩, horigin⟩ := hsame
      rcases h with ⟨url, hurl, hrenderer⟩ | ⟨url, hurl, hplatform⟩
      · rw [hown] at hurl
        injection hurl with hurl
        rw [← hurl, hprotocol, hhost] at hrenderer
        exact .inl ⟨next, hnext, hrenderer⟩
      · rw [hown] at hurl
        injection hurl with hurl
        rw [← hurl, hprotocol, horigin] at hplatform
        exact .inr ⟨next, hnext, hplatform⟩
  · cases hsame

/-! ### Messages and responses -/

theorem isSenderTrusted_ok {sender : SenderLike} (h : isSenderTrusted parser sender = true) :
    sender.isMainFrame ≠ some false ∧ ∃ own, sender.url = some own ∧ AtRenderer parser own := by
  rw [isSenderTrusted] at h
  split at h
  · cases h
  · next hmain =>
      refine ⟨hmain, ?_⟩
      split at h
      · cases h
      · next own hown =>
          refine ⟨own, hown, ?_⟩
          split at h
          · cases h
          · split at h
            · cases h
            · next url hparse =>
                split at h
                · cases h
                · have hrenderer : originOf url.toUrl = rendererOrigin := by
                    simpa [trustedIpcOrigins] using h
                  obtain ⟨hprotocol, hhost⟩ := originOf_renderer hrenderer
                  exact ⟨url, hparse, hprotocol, hhost⟩

theorem guarded_ok {α : Type} {facts : HostFacts} {channel : IpcChannel} {sender : SenderLike}
    {args : List α} {reply : Reply}
    (h : guarded parser facts config channel sender args = .ok reply) :
    isSenderTrusted parser sender = true ∧ args = [] ∧ reply = handler facts config channel := by
  obtain ⟨known, hguard, rfl⟩ := Exceptions.map_eq_ok.mp h
  rw [guardInvocation] at hguard
  split at hguard
  · next htrusted =>
      refine ⟨htrusted, ?_, rfl⟩
      rw [validateInvocation] at hguard
      split at hguard
      · cases hguard
      · split at hguard
        · next hargs => exact List.length_eq_zero_iff.mp (beq_iff_eq.mp hargs)
        · cases hguard
  · cases hguard

/-- The headers have that policy, under whatever case of the name, once. -/
def Enforced (config : HostConfig) (headers : ResponseHeaders) : Prop :=
  headers.filter (fun header => namesPolicy header.1) =
    [(cspHeader, [buildContentSecurityPolicy config none])]

theorem enforced_with (headers : ResponseHeaders) :
    Enforced config (withContentSecurityPolicy headers config none) := by
  have hours : namesPolicy cspHeader = true := by decide
  have hothers : (headers.filter fun header => !namesPolicy header.1).filter
      (fun header => namesPolicy header.1) = [] := by
    rw [List.filter_filter, List.filter_eq_nil_iff]
    intro header _
    cases namesPolicy header.1 <;> simp
  rw [Enforced, withContentSecurityPolicy, List.filter_append, hothers, List.nil_append]
  exact List.filter_cons_of_pos hours

/-- The response is one of the renderer's scheme, or has the policy. -/
def Covered (parser : UrlParser) (config : HostConfig)
    (response : List CodeUnit × ResponseHeaders) : Prop :=
  (∃ url, parser.parse response.1 = some url ∧ url.protocol = rendererScheme) ∨
    Enforced config response.2

theorem covered_received (headers : ResponseHeaders) :
    Covered parser config (rawUrl, onHeadersReceived parser config rawUrl headers) := by
  rw [onHeadersReceived]
  split
  · next hsource =>
      rw [isPolicySetAtSource] at hsource
      split at hsource
      · cases hsource
      · next url hparse => exact .inl ⟨url, hparse, beq_iff_eq.mp hsource⟩
  · exact .inr (enforced_with headers)

/-! ### A run -/

/-- A message of the window's own frame, at the renderer and without arguments, with what its
handler says. -/
structure Due {α : Type} (parser : UrlParser) (facts : HostFacts) (config : HostConfig)
    (answered : Answered α) : Prop where
  top : answered.frame = .top
  bare : answered.args = []
  renderer : AtRenderer parser answered.location
  reply : answered.reply = handler facts config answered.channel

structure Confined {α : Type} (parser : UrlParser) (facts : HostFacts) (config : HostConfig)
    (window : Window α) : Prop where
  location : Permitted parser config window.location
  history : ∀ url ∈ window.history, Permitted parser config url
  opened : ∀ url ∈ window.opened, Handable parser config url
  answered : ∀ answered ∈ window.answered, Due parser facts config answered
  responses : ∀ response ∈ window.responses, Covered parser config response

section Run

variable {α : Type} {facts : HostFacts} {env : Environment} {window : Window α}

theorem initial_confined : Confined parser facts config (Window.initial : Window α) where
  location := .inl parser.entry
  history := by
    intro url hurl
    rw [List.mem_singleton.mp hurl]
    exact .inl parser.entry
  opened := fun _ h => absurd h List.not_mem_nil
  answered := fun _ h => absurd h List.not_mem_nil
  responses := fun _ h => absurd h List.not_mem_nil

theorem Confined.goTo (h : Confined parser facts config window)
    (hurl : Permitted parser config rawUrl) :
    Confined parser facts config (window.goTo rawUrl) :=
  { h with
    location := hurl
    history := fun url hmem => by
      rcases List.mem_cons.mp hmem with rfl | hmem
      · exact hurl
      · exact h.history url hmem }

/-- A message that is answered was the window's own, as the frame inside it is refused. -/
theorem due_of_guarded {channel : IpcChannel} {frame : Frame} {args : List α} {reply : Reply}
    (h : guarded parser facts config channel (window.senderOf frame) args = .ok reply) :
    Due parser facts config ⟨channel, frame, args, window.location, reply⟩ := by
  obtain ⟨htrusted, hargs, hreply⟩ := guarded_ok h
  obtain ⟨hmain, own, hown, hrenderer⟩ := isSenderTrusted_ok htrusted
  cases frame with
  | gone => cases hown
  | top =>
      injection hown with hown
      rw [← hown] at hrenderer
      exact ⟨rfl, hargs, hrenderer, hreply⟩
  | inside url => exact absurd rfl hmain

theorem step_confined (hconfig : Configured parser env config)
    (h : Confined parser facts config window) (event : HostEvent α) :
    Confined parser facts config (window.step parser facts config event) := by
  cases event with
  | navigate url | redirect url =>
      rw [Window.step]
      split
      · next hallowed => exact h.goTo (isNavigationAllowed_ok hconfig hallowed)
      · exact h
  | traverse index =>
      rw [Window.step]
      split
      · exact h
      · next url hurl => exact { h with location := h.history url (List.mem_of_getElem? hurl) }
  | withinDocument url =>
      rw [Window.step]
      split
      · next hsame => exact h.goTo (h.location.sameOrigin hsame)
      · exact h
  | windowOpen url =>
      rw [Window.step]
      split
      · next hopened =>
          rw [Bool.and_eq_true] at hopened
          refine { h with opened := fun other hmem => ?_ }
          rcases List.mem_cons.mp hmem with rfl | hmem
          · exact isExternalOpenAllowed_ok hconfig hopened.2
          · exact h.opened other hmem
      · exact h
  | invoke channel frame args =>
      rw [Window.step]
      split
      · exact h
      · split
        · exact h
        · next known _ reply hreply =>
            refine { h with answered := fun other hmem => ?_ }
            rcases List.mem_cons.mp hmem with rfl | hmem
            · exact due_of_guarded hreply
            · exact h.answered other hmem
  | received url headers =>
      refine { h with responses := fun response hmem => ?_ }
      rcases List.mem_cons.mp hmem with rfl | hmem
      · exact covered_received headers
      · exact h.responses response hmem

theorem steps_confined (hconfig : Configured parser env config)
    (h : Confined parser facts config window) (events : List (HostEvent α)) :
    Confined parser facts config (events.foldl (Window.step parser facts config) window) := by
  induction events generalizing window with
  | nil => exact h
  | cons event events ih => exact ih (step_confined hconfig h event)

/-- **The host stays confined.** In whatever environment it starts, and whatever is asked of
it then: each origin is the one its variable names, under its own scheme; the window is and
has been only at the renderer's URLs and at those origins; the operating system was handed
nothing but `https` URLs of the gateway and the authority; a message was answered only to the
window's own frame, at the renderer, with the facts its channel is for; and each response
from outside the bundle has the host's policy, once. -/
theorem run_confined {events : List (HostEvent α)}
    (h : run parser facts env events = .ok (config, window)) :
    Configured parser env config ∧ Confined parser facts config window := by
  obtain ⟨own, hown, h⟩ := Exceptions.map_eq_ok.mp h
  have hconfig := loadHostConfig_ok hown
  injection h with hsame hwindow
  subst hsame hwindow
  exact ⟨hconfig, steps_confined hconfig initial_confined events⟩

end Run

/-- A URL of a scheme with an authority, with nothing behind its host. -/
def bareUrl (protocol scheme host : List CodeUnit) (htuple : protocol ∈ tupleProtocols)
    (hscheme : protocol = scheme ++ [0x3A] ∧ 0x3A ∉ scheme) : HostUrl where
  protocol := protocol
  host := host
  origin := protocol ++ units "//" ++ host
  pathname := units "/"
  username := []
  password := []
  search := []
  hash := []
  colon := ⟨scheme, hscheme⟩
  tuple _ := rfl
  opaqueOrBlob h := absurd htuple h

def entryUrl : HostUrl where
  protocol := rendererScheme
  host := rendererHost
  origin := units "null"
  pathname := units "/index.html"
  username := []
  password := []
  search := []
  hash := []
  colon := ⟨units "app", by decide⟩
  tuple h := absurd h (by decide)
  opaqueOrBlob _ := .inl rfl

/-- The parser, on the URLs of a host that was not configured. -/
def defaultParser : UrlParser where
  parse text :=
    if text = rendererEntryUrl then some entryUrl
    else if text = defaultConfig.gatewayOrigin then
      some (bareUrl (units "https:") (units "https") (units "gateway.synthia.invalid")
        (by decide) (by decide))
    else if text = defaultConfig.realtimeOrigin then
      some (bareUrl (units "wss:") (units "wss") (units "realtime.synthia.invalid")
        (by decide) (by decide))
    else if text = defaultConfig.authorityOrigin then
      some (bareUrl (units "https:") (units "https") (units "login.microsoftonline.com")
        (by decide) (by decide))
    else none
  entry := ⟨entryUrl, rfl, rfl, rfl⟩

/-- Off to the authority, where a message is refused, and back, where it is answered. -/
def signIn : List (HostEvent Nat) :=
  [.navigate defaultConfig.authorityOrigin, .invoke (units "host:getEndpoints") .top [],
    .traverse 1, .invoke (units "host:getEndpoints") .top []]

theorem run_confined_signIn :
    ∃ window, run defaultParser ⟨[], []⟩ {} signIn = .ok (defaultConfig, window) ∧
      window.answered.length = 1 ∧
      Configured defaultParser {} defaultConfig ∧
      Confined defaultParser ⟨[], []⟩ defaultConfig window := by
  have hrun : ∃ window, run defaultParser ⟨[], []⟩ {} signIn = .ok (defaultConfig, window) ∧
      window.answered.length = 1 := ⟨_, rfl, rfl⟩
  obtain ⟨window, hrun, hanswered⟩ := hrun
  exact ⟨window, hrun, hanswered, run_confined hrun⟩

end DesktopHost

end Synthia
