import Synthia.Infrastructure.Cache
import Synthia.Lib.FirstWrite
import Synthia.Proofs.Keys

/-!
# What the cache keeps apart

A key's text begins with a fixed word and an identifier of fixed length, so it tells
organisations apart and, behind them, the stripped names. Two names with the same
stripped form are one name to the cache; that is all the sharing there is.

In a run, whatever stands under a key is the last write that was sent to it. A read
therefore answers with what the same organisation last wrote under that name, or
with nothing; and every write that was sent had passed the check on its lifetime.
-/

namespace Synthia

open Machine Text

theorem cacheKeyText_inj {tenantId other : TenantId} {key name : List CodePoint} :
    cacheKeyText tenantId key = cacheKeyText other name ↔
      tenantId = other ∧ strip key = strip name := by
  constructor
  · intro h
    obtain ⟨htenant, hrest⟩ := Uuid.toText_append (List.append_cancel_left h)
    injection hrest with _ hname
    exact ⟨congrArg TenantId.mk htenant, hname⟩
  · rintro ⟨rfl, hname⟩
    rw [cacheKeyText, cacheKeyText, hname]

theorem cacheKey_ok {tenant : TenantContext} {key text : List CodePoint}
    (h : cacheKey tenant key = .ok text) : text = cacheKeyText tenant.tenantId key := by
  simp only [cacheKey] at h
  split at h
  · cases h
  · injection h with h
    exact h.symm

/-- What passes the check is a name with something in it, a lifetime within bounds
and a value within its size. -/
theorem validate_ok {key value : List CodePoint} {ttlSeconds : Int}
    (h : validate key value ttlSeconds = .ok ()) :
    strip key ≠ [] ∧ 0 < ttlSeconds ∧ ttlSeconds ≤ maxTtlSeconds ∧
      ∃ bytes, utf8Length value = some bytes ∧ bytes ≤ maxValueBytes := by
  simp only [validate] at h
  split at h
  · cases h
  · next hkey =>
      split at h
      · cases h
      · next httl =>
          obtain ⟨hpos, hmax⟩ := not_not.mp httl
          cases hbytes : utf8Length value with
          | none =>
              rw [hbytes] at h
              cases h
          | some bytes =>
              rw [hbytes] at h
              dsimp only at h
              split at h
              · cases h
              · next hsize =>
                  exact ⟨by simpa using hkey, hpos, hmax, bytes, rfl, by omega⟩

namespace RedisTransientCache

theorem sendable_eq {tenant : TenantContext} {key text : List CodePoint}
    (h : sendable tenant key = some text) : text = cacheKeyText tenant.tenantId key := by
  simp only [sendable] at h
  cases hkey : cacheKey tenant key with
  | error error =>
      rw [hkey] at h
      cases h
  | ok found =>
      rw [hkey] at h
      dsimp only at h
      split at h
      · injection h with h
        rw [← h, cacheKey_ok hkey]
      · cases h

theorem sent_eq {transport : CacheTransport} {tenant : TenantContext}
    {key value text : List CodePoint} {ttlSeconds : Int}
    (h : sent transport tenant key value ttlSeconds = some text) :
    text = cacheKeyText tenant.tenantId key ∧ validate key value ttlSeconds = .ok () := by
  simp only [sent] at h
  split at h
  · cases h
  · next hvalid =>
      split at h
      · exact ⟨sendable_eq h, hvalid⟩
      · cases h

/-- What a read answers is the value of the entry under its key, still alive. -/
theorem get_eq_some {store : CacheStore} {transport : CacheTransport} {now : Instant}
    {tenant : TenantContext} {key value : List CodePoint}
    (h : get store transport now tenant key = some value) :
    ∃ entry, store (cacheKeyText tenant.tenantId key) = some entry ∧ entry.value = value ∧
      now < entry.expiresAt := by
  simp only [get] at h
  split at h
  · cases h
  · cases h
  · simp only [Option.bind_eq_bind, Option.bind_eq_some_iff] at h
    obtain ⟨text, hsendable, entry, hentry, halive⟩ := h
    split at halive
    · next hnow =>
        injection halive with hvalue
        exact ⟨entry, by rw [← sendable_eq hsendable]; exact hentry, hvalue, hnow⟩
    · cases halive

/-! ## The run -/

/-- The last write that was sent under an organisation's name. -/
def World.lastWritten (world : World) (tenantId : TenantId) (key : List CodePoint) :
    Option Written :=
  FirstWrite.latest Written.cacheKey world.written (cacheKeyText tenantId key)

structure World.Kept (world : World) : Prop where
  /-- An entry is the last write under its key. -/
  latest : ∀ text entry, world.store text = some entry →
    ∃ written, FirstWrite.latest Written.cacheKey world.written text = some written ∧
      written.entry = entry
  bounded : ∀ written ∈ world.written, 0 < written.entry.ttlSeconds ∧
    written.entry.ttlSeconds ≤ maxTtlSeconds ∧
      ∃ bytes, utf8Length written.entry.value = some bytes ∧ bytes ≤ maxValueBytes

/-- Dropping an entry keeps what is left. -/
theorem World.Kept.drop {world : World} (h : world.Kept) (text : List CodePoint) :
    World.Kept { world with store := Function.update world.store text none } := by
  refine ⟨?_, h.bounded⟩
  intro other entry hentry
  by_cases hother : other = text
  · rw [hother] at hentry
    dsimp only at hentry
    rw [Function.update_self] at hentry
    cases hentry
  · dsimp only at hentry
    rw [Function.update_of_ne hother] at hentry
    exact h.latest other entry hentry

theorem World.Kept.put {world next : World} {transport : CacheTransport} {now : Instant}
    {tenant : TenantContext} {key value : List CodePoint} {ttlSeconds : Int} (h : world.Kept)
    (hstep : world.step (.put transport now tenant key value ttlSeconds) = some next) :
    next.Kept := by
  simp only [World.step, Option.some.injEq] at hstep
  subst hstep
  cases hsent : sent transport tenant key value ttlSeconds with
  | none =>
      simp only [RedisTransientCache.put, hsent]
      exact h
  | some text =>
      obtain ⟨htext, hvalid⟩ := sent_eq hsent
      obtain ⟨_, hpos, hmax, hsize⟩ := validate_ok hvalid
      simp only [RedisTransientCache.put, hsent]
      constructor
      · intro other entry hentry
        by_cases hother : other = text
        · rw [hother] at hentry ⊢
          dsimp only at hentry
          rw [Function.update_self] at hentry
          injection hentry with hentry
          exact ⟨_, FirstWrite.latest_concat_self htext.symm, hentry⟩
        · dsimp only at hentry
          rw [Function.update_of_ne hother] at hentry
          obtain ⟨written, hlatest, heq⟩ := h.latest other entry hentry
          refine ⟨written, ?_, heq⟩
          have hne : (⟨tenant.tenantId, key, ⟨value, ttlSeconds, now⟩⟩ : Written).cacheKey ≠
              other := fun hsame => hother (hsame.symm.trans htext.symm)
          rw [FirstWrite.latest_concat_of_ne hne, hlatest]
      · intro written hwritten
        rcases List.mem_append.mp hwritten with hold | hnew
        · exact h.bounded written hold
        · rw [List.mem_singleton.mp hnew]
          exact ⟨hpos, hmax, hsize⟩

theorem World.Kept.step {world next : World} {action : Action} (h : world.Kept)
    (hstep : world.step action = some next) : next.Kept := by
  cases action with
  | get transport now tenant key =>
      simp only [World.step, Option.some.injEq] at hstep
      rw [← hstep]
      exact h
  | put transport now tenant key value ttlSeconds => exact h.put hstep
  | invalidate transport tenant key =>
      simp only [World.step, Option.some.injEq, RedisTransientCache.invalidate] at hstep
      rw [← hstep]
      split
      · exact h
      · split
        · exact h.drop _
        · exact h
  | evict text =>
      simp only [World.step, Option.some.injEq] at hstep
      rw [← hstep]
      exact h.drop text

theorem World.Kept.run {last : World} {actions : List Action}
    (hrun : Machine.run World.step {} actions = some last) : last.Kept := by
  refine invariant_run (fun _ _ _ h hstep => h.step hstep) ?_ hrun
  constructor
  · intro text entry hentry
    cases hentry
  · intro written hwritten
    exact absurd hwritten List.not_mem_nil

/-- Two keys are the same exactly for one organisation and one stripped name; a read
answers with the live value its own organisation last wrote under that name, or with
nothing; and every entry in the store has a lifetime within the bounds. -/
theorem cache_isolates_and_expires {last : World} {actions : List Action}
    (hrun : Machine.run World.step {} actions = some last) :
    (∀ (tenant other : TenantContext) (key name text : List CodePoint),
      cacheKey tenant key = .ok text → (cacheKey other name = .ok text ↔
        other.tenantId = tenant.tenantId ∧ strip name = strip key)) ∧
    (∀ transport now tenant key value,
      get last.store transport now tenant key = some value →
        ∃ written, last.lastWritten tenant.tenantId key = some written ∧
          written.tenantId = tenant.tenantId ∧ strip written.key = strip key ∧
          written.entry.value = value ∧ now < written.entry.expiresAt) ∧
    (∀ text entry, last.store text = some entry →
      0 < entry.ttlSeconds ∧ entry.ttlSeconds ≤ maxTtlSeconds) := by
  have hkept := World.Kept.run hrun
  refine ⟨?_, ?_, ?_⟩
  · intro tenant other key name text hkey
    have htext := cacheKey_ok hkey
    constructor
    · intro hname
      exact cacheKeyText_inj.mp ((cacheKey_ok hname).symm.trans htext)
    · rintro ⟨htenant, hname⟩
      simp only [cacheKey] at hkey ⊢
      rw [hname]
      split at hkey
      · cases hkey
      · next hblank => rw [if_neg hblank, htext, cacheKeyText_inj.mpr ⟨htenant, hname⟩]
  · intro transport now tenant key value hget
    obtain ⟨entry, hentry, hvalue, halive⟩ := get_eq_some hget
    obtain ⟨written, hlatest, heq⟩ := hkept.latest _ entry hentry
    obtain ⟨htenant, hname⟩ := cacheKeyText_inj.mp (FirstWrite.mem_of_latest hlatest).2
    rw [← heq] at hvalue halive
    exact ⟨written, hlatest, htenant, hname, hvalue, halive⟩
  · intro text entry hentry
    obtain ⟨written, hlatest, heq⟩ := hkept.latest text entry hentry
    obtain ⟨hpos, hmax, _⟩ := hkept.bounded written (FirstWrite.mem_of_latest hlatest).1
    rw [← heq]
    exact ⟨hpos, hmax⟩

/-! ## Two names, one key -/

def cachingTenant : TenantContext := ⟨⟨1⟩, ⟨2⟩, .active, .endUserIdentity⟩

/-- A trailing space is no part of a name. -/
theorem trailing_space_shares :
    ofString "a" ≠ ofString "a " ∧
      ∃ text, cacheKey cachingTenant (ofString "a") = .ok text ∧
        cacheKey cachingTenant (ofString "a ") = .ok text :=
  ⟨by decide, _, rfl, rfl⟩

def cachedRun : List Action :=
  [.put .answers 0 cachingTenant (ofString "a") (ofString "v") 60,
    .put .answers 0 ⟨⟨3⟩, ⟨4⟩, .active, .endUserIdentity⟩ (ofString "a") (ofString "w") 60]

def cachedWorld : World := (Machine.run World.step {} cachedRun).getD {}

theorem cachedRun_reads :
    get cachedWorld.store .answers 1 cachingTenant (ofString " a") = some (ofString "v") ∧
      ∃ written, cachedWorld.lastWritten ⟨1⟩ (ofString " a") = some written ∧
        written.tenantId = ⟨1⟩ ∧ strip written.key = strip (ofString " a") ∧
        written.entry.value = ofString "v" ∧ 1 < written.entry.expiresAt := by
  have hrun : Machine.run World.step {} cachedRun = some cachedWorld := rfl
  have hget : get cachedWorld.store .answers 1 cachingTenant (ofString " a") =
      some (ofString "v") := by decide +kernel
  exact ⟨hget, (cache_isolates_and_expires hrun).2.1 .answers 1 cachingTenant (ofString " a")
    (ofString "v") hget⟩

end RedisTransientCache

end Synthia
