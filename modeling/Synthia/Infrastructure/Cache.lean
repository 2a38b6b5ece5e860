import Synthia.Lib.Machine
import Synthia.Messaging.Envelopes
import Mathlib.Logic.Function.Basic

/-!
# The transient cache

`infrastructure.cache`. A key is the organisation's prefix and what is left of the
caller's key once it is stripped. A write is checked before anything else and
raises where the check fails; everything the server or the network does wrong is a
miss.

The server is Redis, by what `SET` with an expiry, `GET` and `DEL` do. It may drop
an entry whenever it likes. Keys and values travel as UTF-8, so a text with a
lone surrogate in it cannot travel at all.
-/

namespace Synthia

open Text

/-- `MAX_TTL_SECONDS`. -/
def maxTtlSeconds : Int := 900

/-- `MAX_VALUE_BYTES`. -/
def maxValueBytes : Nat := 65536

/-- The bytes of one character; `none` for a surrogate. -/
def utf8Size (c : CodePoint) : Option Nat :=
  if c.val < 0x80 then some 1
  else if c.val < 0x800 then some 2
  else if 0xD800 ≤ c.val ∧ c.val ≤ 0xDFFF then none
  else if c.val < 0x10000 then some 3
  else some 4

/-- `len(text.encode("utf-8"))`; `none` where encoding raises. -/
def utf8Length : List CodePoint → Option Nat
  | [] => some 0
  | c :: text => do
      let size ← utf8Size c
      let rest ← utf8Length text
      return size + rest

/-- The `ValueError`s of this module. -/
inductive CacheValueError where
  | blankKey
  | ttl (seconds : Int)
  | unencodable
  | oversized
  deriving DecidableEq, Repr

def CacheValueError.message : CacheValueError → String
  | .blankKey => "a cache key is required; an empty one collides with every other"
  | .ttl seconds =>
      s!"a cache entry needs a TTL in (0, {maxTtlSeconds}] seconds, got {seconds}. " ++
      "Redis is transient only: nothing here may outlive the execution window of the work it " ++
      "relates to, and nothing here is a durable record."
  | .unencodable => "surrogates not allowed"
  | .oversized =>
      s!"a cache entry may not exceed {maxValueBytes} bytes. A cache holding large objects " ++
      "is a store, whatever it is called."

/-- `f"synthia:{tenant.tenant_id.value}:{key.strip()}"`, past the check. -/
def cacheKeyText (tenantId : TenantId) (key : List CodePoint) : List CodePoint :=
  ofString "synthia:" ++ (tenantId.value.toText ++ 0x3A :: strip key)

def cacheKey (tenant : TenantContext) (key : List CodePoint) :
    Except CacheValueError (List CodePoint) :=
  if (strip key).isEmpty then .error .blankKey else .ok (cacheKeyText tenant.tenantId key)

/-- `_validate`. -/
def validate (key value : List CodePoint) (ttlSeconds : Int) : Except CacheValueError Unit :=
  if (strip key).isEmpty then .error .blankKey
  else if ¬ (0 < ttlSeconds ∧ ttlSeconds ≤ maxTtlSeconds) then .error (.ttl ttlSeconds)
  else match utf8Length value with
    | none => .error .unencodable
    | some bytes => if bytes > maxValueBytes then .error .oversized else .ok ()

/-! ## The server -/

structure CacheEntry where
  value : List CodePoint
  ttlSeconds : Int
  storedAt : Instant
  deriving DecidableEq

def CacheEntry.expiresAt (entry : CacheEntry) : Instant :=
  entry.storedAt + entry.ttlSeconds * 1000000

abbrev CacheStore := List CodePoint → Option CacheEntry

/-- What becomes of a command. One that raises may have been carried out. -/
inductive CacheTransport where
  | unavailable
  | raises (carriedOut : Bool)
  | answers
  deriving DecidableEq, Repr

def CacheTransport.carriesOut : CacheTransport → Bool
  | .unavailable => false
  | .raises carriedOut => carriedOut
  | .answers => true

namespace RedisTransientCache

/-- The key of a command that gets as far as being sent. Inside the `try`, a blank
key is swallowed with everything else. -/
def sendable (tenant : TenantContext) (key : List CodePoint) : Option (List CodePoint) :=
  match cacheKey tenant key with
  | .error _ => none
  | .ok text => if (utf8Length text).isSome then some text else none

def get (store : CacheStore) (transport : CacheTransport) (now : Instant)
    (tenant : TenantContext) (key : List CodePoint) : Option (List CodePoint) :=
  match transport with
  | .unavailable => none
  | .raises _ => none
  | .answers => do
      let text ← sendable tenant key
      let entry ← store text
      if now < entry.expiresAt then some entry.value else none

/-- What a `put` sends and has carried out: the key it goes under. -/
def sent (transport : CacheTransport) (tenant : TenantContext)
    (key value : List CodePoint) (ttlSeconds : Int) : Option (List CodePoint) :=
  match validate key value ttlSeconds with
  | .error _ => none
  | .ok () => if transport.carriesOut then sendable tenant key else none

def put (store : CacheStore) (transport : CacheTransport) (now : Instant)
    (tenant : TenantContext) (key value : List CodePoint) (ttlSeconds : Int) :
    Except CacheValueError Unit × CacheStore :=
  (validate key value ttlSeconds,
    match sent transport tenant key value ttlSeconds with
    | none => store
    | some text => Function.update store text (some ⟨value, ttlSeconds, now⟩))

def invalidate (store : CacheStore) (transport : CacheTransport) (tenant : TenantContext)
    (key : List CodePoint) : CacheStore :=
  match sendable tenant key with
  | none => store
  | some text => if transport.carriesOut then Function.update store text none else store

/-! ## Runs -/

/-- A `SET` that was carried out. -/
structure Written where
  tenantId : TenantId
  key : List CodePoint
  entry : CacheEntry
  deriving DecidableEq

def Written.cacheKey (written : Written) : List CodePoint :=
  cacheKeyText written.tenantId written.key

structure World where
  store : CacheStore := fun _ => none
  /-- Every `SET` carried out, oldest first. -/
  written : List Written := []

inductive Action where
  | get (transport : CacheTransport) (now : Instant) (tenant : TenantContext)
      (key : List CodePoint)
  | put (transport : CacheTransport) (now : Instant) (tenant : TenantContext)
      (key value : List CodePoint) (ttlSeconds : Int)
  | invalidate (transport : CacheTransport) (tenant : TenantContext) (key : List CodePoint)
  /-- The server drops an entry. -/
  | evict (text : List CodePoint)

def World.step (world : World) : Action → Option World
  | .get .. => some world
  | .put transport now tenant key value ttlSeconds =>
      some {
        store := (put world.store transport now tenant key value ttlSeconds).2
        written := match sent transport tenant key value ttlSeconds with
          | none => world.written
          | some _ => world.written ++ [⟨tenant.tenantId, key, ⟨value, ttlSeconds, now⟩⟩] }
  | .invalidate transport tenant key =>
      some { world with store := invalidate world.store transport tenant key }
  | .evict text => some { world with store := Function.update world.store text none }

end RedisTransientCache

end Synthia
