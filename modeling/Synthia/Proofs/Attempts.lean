import Synthia.Execution.Idempotency

/-!
# What the store prevents

A reserved row without an outcome is read back as no row at all, and
`begin_effect` tells its caller to act on both. So the store prevents a second
effect only where no second caller asks before the first has recorded, where nobody
asks again once the one that was told to act has crashed, and where its update finds
the row.

Along a run that keeps to this (`Orderly`), a key that a caller was told to act on
is being acted on by exactly one worker, has its outcome in the table, or was
abandoned in a crash; and an outcome, once in the table, stays.
-/

namespace Synthia.Attempts

open Text

/-- The step is one the store can answer for: a key is asked about by its own
organisation, while nobody acts on it and no crash has abandoned it, and the update
finds the row reserved for what its worker was told to do. A worker may crash at any
moment. -/
def Orderly (world : World) : Action → Prop
  | .reserve _ _ _ => True
  | .begin _ tenant key =>
      (∀ worker, (world.workers worker).acting ≠ some key) ∧ key ∉ world.abandoned ∧
        ∀ row ∈ world.records.rows, row.idempotencyKey = key → row.tenantId = tenant.tenantId
  | .complete worker tenant key operationId _ =>
      (world.workers worker).acting = some key ∧
        ∃ row ∈ world.records.rows, IdempotencyStore.reserved tenant key operationId row = true
  | .commit _ => True
  | .crash _ => True

/-! ## What a step does -/

variable {world next : World}

@[simp] theorem World.become_self (worker : WorkerId) (after : Worker) :
    (world.become worker after).workers worker = after :=
  Function.update_self _ _ _

@[simp] theorem World.become_of_ne {worker other : WorkerId} (after : Worker)
    (h : other ≠ worker) : (world.become worker after).workers other = world.workers other :=
  Function.update_of_ne h _ _

theorem World.reserve_eq_some {tenant : TenantId} {key : List CodePoint}
    {operationId : OperationId} (h : world.reserve tenant key operationId = some next) :
    ∃ hfresh : key ∉ world.records.rows.map IdempotencyRecord.idempotencyKey,
      next = { world with
        records := world.records.insert ⟨key, tenant, operationId, none⟩ hfresh } := by
  unfold World.reserve at h
  split at h
  · next hfresh =>
      injection h with h
      exact ⟨hfresh, h.symm⟩
  · cases h

theorem World.begin_eq_some {worker : WorkerId} {tenant : TenantContext}
    {key : List CodePoint} (h : world.begin worker tenant key = some next) :
    next = world ∨
      ((world.workers worker).acting = none ∧
        IdempotencyStore.replay world.records tenant key = none ∧
        next = { world.become worker { acting := some key } with
          told := world.told ++ [key] }) := by
  unfold World.begin at h
  split at h
  · next hidle =>
      rw [Bool.and_eq_true] at hidle
      split at h
      · next hexecute =>
          injection h with h
          exact Or.inr ⟨Option.isNone_iff_eq_none.mp hidle.1,
            beginEffect_shouldExecute.mp hexecute, h.symm⟩
      · injection h with h
        exact Or.inl h.symm
  · cases h

theorem World.complete_eq_some {worker : WorkerId} {tenant : TenantContext}
    {key : List CodePoint} {operationId : OperationId} {outcome : String}
    (h : world.complete worker tenant key operationId outcome = some next) :
    ∃ locks, next = { world.become worker { world.workers worker with
        pending := some ⟨tenant, key, operationId, outcome,
          world.records.rows.any (IdempotencyStore.reserved tenant key operationId)⟩ } with
      locks } := by
  unfold World.complete at h
  dsimp only at h
  split at h
  · injection h with h
    exact ⟨_, h.symm⟩
  · cases h

theorem World.commit_eq_some {worker : WorkerId} (h : world.commit worker = some next) :
    ∃ pending, (world.workers worker).pending = some pending ∧
      ((pending.hit = false ∧ next = world.release worker) ∨
        (pending.hit = true ∧ next = { world.release worker with
          records := completeEffect world.records pending.tenant pending.key
            pending.operationId pending.outcome
          recorded := world.recorded ++ [(pending.key, pending.outcome)] })) := by
  unfold World.commit at h
  cases hpending : (world.workers worker).pending with
  | none =>
      rw [hpending] at h
      cases h
  | some pending =>
      rw [hpending] at h
      refine ⟨pending, rfl, ?_⟩
      dsimp only at h
      split at h
      · next hhit =>
          injection h with h
          exact Or.inr ⟨hhit, h.symm⟩
      · next hmiss =>
          injection h with h
          exact Or.inl ⟨Bool.eq_false_iff.mpr hmiss, h.symm⟩

/-! ## The invariant -/

structure World.Sound (world : World) : Prop where
  /-- Nobody was told to act on a key twice. -/
  once : ∀ key, world.told.count key ≤ 1
  /-- A key acted on has no outcome. -/
  unrecorded : ∀ worker key, (world.workers worker).acting = some key →
    ∀ row ∈ world.records.rows, row.idempotencyKey = key → row.outcome = none
  /-- A key is acted on by one worker. -/
  alone : ∀ worker other key, (world.workers worker).acting = some key →
    (world.workers other).acting = some key → worker = other
  /-- An open update is of the key its worker was told to act on, and has found its
  row. -/
  updates : ∀ worker pending, (world.workers worker).pending = some pending →
    (world.workers worker).acting = some pending.key ∧ pending.hit = true ∧
      ∃ row ∈ world.records.rows,
        IdempotencyStore.reserved pending.tenant pending.key pending.operationId row = true
  /-- What somebody was told to act on is being acted on, was abandoned, or has its
  outcome. -/
  told : ∀ key ∈ world.told, (∃ worker, (world.workers worker).acting = some key) ∨
    key ∈ world.abandoned ∨
    ∃ row ∈ world.records.rows, row.idempotencyKey = key ∧ row.outcome ≠ none
  /-- A recorded outcome is in the table. -/
  recorded : ∀ key outcome, (key, outcome) ∈ world.recorded →
    ∃ row ∈ world.records.rows, row.idempotencyKey = key ∧ row.outcome = some outcome

theorem World.sound_start : ({} : World).Sound where
  once _ := Nat.zero_le _
  unrecorded _ _ h := nomatch h
  alone _ _ _ h := nomatch h
  updates _ _ h := nomatch h
  told _ h := absurd h List.not_mem_nil
  recorded _ _ h := absurd h List.not_mem_nil

theorem World.Sound.reserve (hsound : world.Sound) {tenant : TenantId}
    {key : List CodePoint} {operationId : OperationId}
    (h : world.reserve tenant key operationId = some next) : next.Sound := by
  obtain ⟨hfresh, rfl⟩ := World.reserve_eq_some h
  have hkeep : ∀ row ∈ world.records.rows,
      row ∈ (world.records.insert ⟨key, tenant, operationId, none⟩ hfresh).rows :=
    fun row hrow => List.mem_append.mpr (Or.inl hrow)
  refine ⟨hsound.once, ?_, hsound.alone, ?_, ?_, ?_⟩
  · intro worker held hacting row hrow hkey
    rcases List.mem_append.mp hrow with hold | hnew
    · exact hsound.unrecorded worker held hacting row hold hkey
    · rw [List.mem_singleton.mp hnew]
  · intro worker pending hpending
    obtain ⟨hacting, hhit, row, hrow, hreserved⟩ := hsound.updates worker pending hpending
    exact ⟨hacting, hhit, row, hkeep row hrow, hreserved⟩
  · intro held hheld
    rcases hsound.told held hheld with hacting | habandoned | ⟨row, hrow, hkey, houtcome⟩
    · exact Or.inl hacting
    · exact Or.inr (Or.inl habandoned)
    · exact Or.inr (Or.inr ⟨row, hkeep row hrow, hkey, houtcome⟩)
  · intro held outcome hrecorded
    obtain ⟨row, hrow, hkey, houtcome⟩ := hsound.recorded held outcome hrecorded
    exact ⟨row, hkeep row hrow, hkey, houtcome⟩

/-- A key asked about in an orderly way is replayed if it has an outcome. -/
theorem replay_of_outcome {worker : WorkerId} {tenant : TenantContext} {key : List CodePoint}
    {row : IdempotencyRecord} {outcome : String}
    (horderly : Orderly world (.begin worker tenant key)) (hrow : row ∈ world.records.rows)
    (hkey : row.idempotencyKey = key) (houtcome : row.outcome = some outcome) :
    IdempotencyStore.replay world.records tenant key = some outcome :=
  IdempotencyStore.replay_eq_some.mpr
    ⟨row, hrow, horderly.2.2 row hrow hkey, hkey, houtcome⟩

/-- What a worker is acting on after one worker was told to act on a key. -/
theorem World.acting_become {worker other : WorkerId} {key held : List CodePoint}
    (h : ((world.become worker { acting := some key }).workers other).acting = some held) :
    (other = worker ∧ held = key) ∨ (world.workers other).acting = some held := by
  by_cases hother : other = worker
  · rw [hother, World.become_self] at h
    exact Or.inl ⟨hother, (Option.some.inj h).symm⟩
  · rw [World.become_of_ne _ hother] at h
    exact Or.inr h

theorem World.Sound.begin (hsound : world.Sound) {worker : WorkerId}
    {tenant : TenantContext} {key : List CodePoint}
    (horderly : Orderly world (.begin worker tenant key))
    (h : world.begin worker tenant key = some next) : next.Sound := by
  rcases World.begin_eq_some h with rfl | ⟨hidle, hnone, rfl⟩
  · exact hsound
  · have hempty : ∀ row ∈ world.records.rows, row.idempotencyKey = key → row.outcome = none := by
      intro row hrow hkey
      cases houtcome : row.outcome with
      | none => rfl
      | some outcome =>
          rw [replay_of_outcome horderly hrow hkey houtcome] at hnone
          cases hnone
    have hnew : key ∉ world.told := by
      intro htold
      rcases hsound.told key htold with
        ⟨other, hacting⟩ | habandoned | ⟨row, hrow, hkey, houtcome⟩
      · exact horderly.1 other hacting
      · exact horderly.2.1 habandoned
      · exact houtcome (hempty row hrow hkey)
    refine ⟨?_, ?_, ?_, ?_, ?_, hsound.recorded⟩
    · intro held
      show (world.told ++ [key]).count held ≤ 1
      rw [List.count_append]
      by_cases hheld : held = key
      · rw [hheld, List.count_eq_zero.mpr hnew, List.count_singleton_self]
      · rw [List.count_singleton, if_neg (by simpa using Ne.symm hheld)]
        exact hsound.once held
    · intro other held hheld
      rcases World.acting_become hheld with ⟨_, rfl⟩ | hold
      · exact hempty
      · exact hsound.unrecorded other held hold
    · intro first second held hfirst hsecond
      rcases World.acting_become hfirst with ⟨rfl, rfl⟩ | hold
      · rcases World.acting_become hsecond with ⟨rfl, _⟩ | hother
        · rfl
        · exact absurd hother (horderly.1 second)
      · rcases World.acting_become hsecond with ⟨rfl, rfl⟩ | hother
        · exact absurd hold (horderly.1 first)
        · exact hsound.alone first second held hold hother
    · intro other pending hpending
      by_cases hother : other = worker
      · change ((world.become worker _).workers other).pending = _ at hpending
        rw [hother, World.become_self] at hpending
        cases hpending
      · change ((world.become worker _).workers other).pending = _ at hpending
        rw [World.become_of_ne _ hother] at hpending
        show ((world.become worker _).workers other).acting = _ ∧ _
        rw [World.become_of_ne _ hother]
        exact hsound.updates other pending hpending
    · intro held hheld
      rcases List.mem_append.mp hheld with hold | hsame
      · rcases hsound.told held hold with ⟨other, hacting⟩ | hended
        · refine Or.inl ⟨other, ?_⟩
          have hother : other ≠ worker := by
            rintro rfl
            rw [hidle] at hacting
            cases hacting
          show ((world.become worker _).workers other).acting = _
          rw [World.become_of_ne _ hother]
          exact hacting
        · exact Or.inr hended
      · rw [List.mem_singleton.mp hsame]
        refine Or.inl ⟨worker, ?_⟩
        show ((world.become worker _).workers worker).acting = _
        rw [World.become_self]

/-- An open update leaves everybody acting on what they were acting on. -/
theorem World.acting_pending {worker : WorkerId} (pending : Option PendingOutcome)
    (other : WorkerId) :
    ((world.become worker { world.workers worker with pending }).workers other).acting =
      (world.workers other).acting := by
  by_cases hother : other = worker
  · rw [hother, World.become_self]
  · rw [World.become_of_ne _ hother]

theorem World.Sound.complete (hsound : world.Sound) {worker : WorkerId}
    {tenant : TenantContext} {key : List CodePoint} {operationId : OperationId}
    {outcome : String}
    (horderly : Orderly world (.complete worker tenant key operationId outcome))
    (h : world.complete worker tenant key operationId outcome = some next) : next.Sound := by
  obtain ⟨locks, rfl⟩ := World.complete_eq_some h
  refine ⟨hsound.once, ?_, ?_, ?_, ?_, hsound.recorded⟩
  · intro other held hheld
    refine hsound.unrecorded other held ?_
    rw [← hheld]
    exact (World.acting_pending _ other).symm
  · intro first second held hfirst hsecond
    refine hsound.alone first second held ?_ ?_
    · rw [← hfirst]
      exact (World.acting_pending _ first).symm
    · rw [← hsecond]
      exact (World.acting_pending _ second).symm
  · intro other pending hpending
    show ((world.become worker _).workers other).acting = _ ∧ _
    rw [World.acting_pending]
    by_cases hother : other = worker
    · change ((world.become worker _).workers other).pending = _ at hpending
      rw [hother, World.become_self] at hpending
      injection hpending with hpending
      rw [← hpending, hother]
      obtain ⟨hacting, row, hrow, hreserved⟩ := horderly
      exact ⟨hacting, List.any_eq_true.mpr ⟨row, hrow, hreserved⟩, row, hrow, hreserved⟩
    · change ((world.become worker _).workers other).pending = _ at hpending
      rw [World.become_of_ne _ hother] at hpending
      exact hsound.updates other pending hpending
  · intro held hheld
    rcases hsound.told held hheld with ⟨other, hacting⟩ | hended
    · refine Or.inl ⟨other, ?_⟩
      rw [← hacting]
      exact World.acting_pending _ other
    · exact Or.inr hended

/-- The store's write of an outcome: the reserved rows get it, the others stay. -/
theorem mem_completeEffect {records : IdempotencyTable} {tenant : TenantContext}
    {key : List CodePoint} {operationId : OperationId} {outcome : String}
    {row : IdempotencyRecord} :
    row ∈ (completeEffect records tenant key operationId outcome).rows ↔
      ∃ old ∈ records.rows,
        row = if IdempotencyStore.reserved tenant key operationId old then
          { old with outcome := some outcome } else old :=
  Relational.mem_updateRows

theorem reserved_key {tenant : TenantContext} {key : List CodePoint}
    {operationId : OperationId} {row : IdempotencyRecord}
    (h : IdempotencyStore.reserved tenant key operationId row = true) :
    row.idempotencyKey = key := by
  rw [IdempotencyStore.reserved, Bool.and_eq_true, Bool.and_eq_true, beq_iff_eq, beq_iff_eq]
    at h
  exact h.1.2

/-- Nobody acts on more than they did once a worker is released. -/
theorem World.acting_release {worker other : WorkerId} {held : List CodePoint}
    (h : ((world.release worker).workers other).acting = some held) :
    other ≠ worker ∧ (world.workers other).acting = some held := by
  by_cases hother : other = worker
  · change ((world.become worker {}).workers other).acting = _ at h
    rw [hother, World.become_self] at h
    cases h
  · change ((world.become worker {}).workers other).acting = _ at h
    rw [World.become_of_ne _ hother] at h
    exact ⟨hother, h⟩

theorem World.pending_release {worker other : WorkerId} {pending : PendingOutcome}
    (h : ((world.release worker).workers other).pending = some pending) :
    other ≠ worker ∧ (world.workers other).pending = some pending := by
  by_cases hother : other = worker
  · change ((world.become worker {}).workers other).pending = _ at h
    rw [hother, World.become_self] at h
    cases h
  · change ((world.become worker {}).workers other).pending = _ at h
    rw [World.become_of_ne _ hother] at h
    exact ⟨hother, h⟩

theorem World.workers_release {worker other : WorkerId} (h : other ≠ worker) :
    (world.release worker).workers other = world.workers other :=
  World.become_of_ne _ h

/-- A crash abandons what its worker was acting on, and nothing else changes. -/
theorem World.Sound.crash (hsound : world.Sound) (worker : WorkerId) :
    (world.crash worker).Sound := by
  refine ⟨hsound.once, ?_, ?_, ?_, ?_, hsound.recorded⟩
  · intro other held hheld
    exact hsound.unrecorded other held (World.acting_release hheld).2
  · intro first second held hfirst hsecond
    exact hsound.alone first second held (World.acting_release hfirst).2
      (World.acting_release hsecond).2
  · intro other pending hpending
    obtain ⟨hother, hold⟩ := World.pending_release hpending
    show ((world.release worker).workers other).acting = _ ∧ _
    rw [World.workers_release hother]
    exact hsound.updates other pending hold
  · intro held hheld
    rcases hsound.told held hheld with ⟨other, hacting⟩ | habandoned | hrecorded
    · by_cases hother : other = worker
      · rw [hother] at hacting
        exact Or.inr (Or.inl (List.mem_append_left _ (Option.mem_toList.mpr hacting)))
      · refine Or.inl ⟨other, ?_⟩
        show ((world.release worker).workers other).acting = _
        rw [World.workers_release hother]
        exact hacting
    · exact Or.inr (Or.inl (List.mem_append_right _ habandoned))
    · exact Or.inr (Or.inr hrecorded)

/-- The commit of an update: its key is recorded, and its worker was the only one
acting on it. -/
theorem World.Sound.commit (hsound : world.Sound) {worker : WorkerId}
    (h : world.commit worker = some next) : next.Sound := by
  obtain ⟨pending, hpending, hcommit⟩ := World.commit_eq_some h
  obtain ⟨hacting, hhit, found, hfound, hreserved⟩ := hsound.updates worker pending hpending
  obtain ⟨hmiss, _⟩ | ⟨_, rfl⟩ := hcommit
  · rw [hhit] at hmiss
    cases hmiss
  · -- a row of another key is in the new table as it was in the old
    have hother_row : ∀ row : IdempotencyRecord, row.idempotencyKey ≠ pending.key →
        (row ∈ (completeEffect world.records pending.tenant pending.key pending.operationId
          pending.outcome).rows ↔ row ∈ world.records.rows) := by
      intro row hkey
      have hkept : ∀ old : IdempotencyRecord, old.idempotencyKey ≠ pending.key →
          (if IdempotencyStore.reserved pending.tenant pending.key pending.operationId old then
            { old with outcome := some pending.outcome } else old) = old :=
        fun old hold => if_neg fun hwhere => hold (reserved_key hwhere)
      rw [mem_completeEffect]
      constructor
      · rintro ⟨old, hold, hrow⟩
        have hsame : old.idempotencyKey = row.idempotencyKey := by
          rw [hrow]
          split <;> rfl
        rw [hrow, hkept old (by rw [hsame]; exact hkey)]
        exact hold
      · intro hold
        exact ⟨row, hold, (hkept row hkey).symm⟩
    have hwritten : { found with outcome := some pending.outcome } ∈
        (completeEffect world.records pending.tenant pending.key pending.operationId
          pending.outcome).rows :=
      mem_completeEffect.mpr ⟨found, hfound, (if_pos hreserved).symm⟩
    have hnot : ∀ other held, other ≠ worker → (world.workers other).acting = some held →
        held ≠ pending.key := by
      rintro other held hother hheld rfl
      exact hother (hsound.alone other worker _ hheld hacting)
    refine ⟨hsound.once, ?_, ?_, ?_, ?_, ?_⟩
    · intro other held hheld row hrow hkey
      obtain ⟨hother, hold⟩ := World.acting_release hheld
      have hne := hnot other held hother hold
      rw [← hkey] at hne
      exact hsound.unrecorded other held hold row ((hother_row row hne).mp hrow) hkey
    · intro first second held hfirst hsecond
      exact hsound.alone first second held (World.acting_release hfirst).2
        (World.acting_release hsecond).2
    · intro other open' hopen
      obtain ⟨hother, hold⟩ := World.pending_release hopen
      obtain ⟨hheld, hhit', row, hrow, hwhere⟩ := hsound.updates other open' hold
      have hne := hnot other _ hother hheld
      refine ⟨?_, hhit', row, ?_, hwhere⟩
      · show ((world.release worker).workers other).acting = _
        rw [World.workers_release hother]
        exact hheld
      · rw [← reserved_key hwhere] at hne
        exact (hother_row row hne).mpr hrow
    · intro held hheld
      by_cases hkey : held = pending.key
      · refine Or.inr (Or.inr ⟨_, hwritten, ?_, Option.some_ne_none _⟩)
        rw [hkey]
        exact reserved_key hreserved
      · rcases hsound.told held hheld with
          ⟨other, hother⟩ | habandoned | ⟨row, hrow, hsame, houtcome⟩
        · refine Or.inl ⟨other, ?_⟩
          have hne : other ≠ worker := by
            rintro rfl
            rw [hacting] at hother
            exact hkey (Option.some.inj hother).symm
          show ((world.release worker).workers other).acting = _
          rw [World.workers_release hne]
          exact hother
        · exact Or.inr (Or.inl habandoned)
        · rw [← hsame] at hkey
          exact Or.inr (Or.inr ⟨row, (hother_row row hkey).mpr hrow, hsame, houtcome⟩)
    · intro held outcome hheld
      rcases List.mem_append.mp hheld with hold | hnew
      · obtain ⟨row, hrow, hsame, houtcome⟩ := hsound.recorded held outcome hold
        have hkey : row.idempotencyKey ≠ pending.key := by
          intro hkey
          rw [hsound.unrecorded worker _ hacting row hrow hkey] at houtcome
          cases houtcome
        exact ⟨row, (hother_row row hkey).mpr hrow, hsame, houtcome⟩
      · injection List.mem_singleton.mp hnew with hheld houtcome
        rw [hheld, houtcome]
        exact ⟨_, hwritten, reserved_key hreserved, rfl⟩

/-! ## Runs -/

theorem World.Sound.step (hsound : world.Sound) {action : Action}
    (horderly : Orderly world action) (h : world.step action = some next) : next.Sound := by
  cases action with
  | reserve tenant key operationId => exact hsound.reserve h
  | begin worker tenant key => exact hsound.begin horderly h
  | complete worker tenant key operationId outcome => exact hsound.complete horderly h
  | commit worker => exact hsound.commit h
  | crash worker =>
      injection h with h
      rw [← h]
      exact hsound.crash worker

theorem World.sound_run {actions : List Action} (hsound : world.Sound)
    (hrun : Machine.run World.step world actions = some next)
    (horderly : Machine.Along World.step Orderly world actions) : next.Sound :=
  Machine.invariant_along (fun _ _ _ hinv hgood hstep => hinv.step hgood hstep) hsound hrun
    horderly

/-- **Where the store prevents a repeated effect.** Over any orderly run, crashes
included: no key is told to be acted on twice, and once an outcome has been recorded for a key,
whoever asks about the key is given that outcome and told not to act. -/
theorem effect_prevented {actions : List Action} {last : World}
    (hrun : Machine.run World.step {} actions = some last)
    (horderly : Machine.Along World.step Orderly {} actions) :
    (∀ key, last.told.count key ≤ 1) ∧
      ∀ before worker tenant key after middle outcome,
        actions = before ++ .begin worker tenant key :: after →
        Machine.run World.step {} before = some middle →
        (key, outcome) ∈ middle.recorded →
        beginEffect middle.records tenant key = ⟨key, true, some outcome⟩ ∧
          (beginEffect middle.records tenant key).shouldExecute = false := by
  refine ⟨(World.sound_run World.sound_start hrun horderly).once, ?_⟩
  rintro before worker tenant key after middle outcome rfl hbefore hrecorded
  have hsound := World.sound_run World.sound_start hbefore (Machine.along_before horderly)
  obtain ⟨row, hrow, hkey, houtcome⟩ := hsound.recorded key outcome hrecorded
  have hreplay := replay_of_outcome (Machine.along_at horderly hbefore) hrow hkey houtcome
  have hdecision : beginEffect middle.records tenant key = ⟨key, true, some outcome⟩ := by
    unfold beginEffect
    rw [hreplay]
  rw [hdecision]
  exact ⟨rfl, rfl⟩

/-! ### One key, one attempt and two -/

def sampleTenant : TenantContext := ⟨⟨1⟩, ⟨1⟩, .active, .workItem⟩

/-- A key reserved, acted on and recorded, and asked about again by a worker that then
crashes over another key. -/
def oneAttempt : List Action :=
  [.reserve ⟨1⟩ [0x6B] ⟨3⟩, .begin 0 sampleTenant [0x6B],
   .complete 0 sampleTenant [0x6B] ⟨3⟩ "done", .commit 0, .begin 1 sampleTenant [0x6B],
   .begin 1 sampleTenant [0x61], .crash 1]

def reservedWorld : World where
  records := ⟨[⟨[0x6B], ⟨1⟩, ⟨3⟩, none⟩], List.nodup_singleton _⟩

def actingWorld : World :=
  { reservedWorld.become 0 { acting := some [0x6B] } with told := [[0x6B]] }

def updatedWorld : World :=
  { actingWorld.become 0 { actingWorld.workers 0 with
      pending := some ⟨sampleTenant, [0x6B], ⟨3⟩, "done", true⟩ } with
    locks := [(0, [0x6B])] }

def recordedWorld : World :=
  { updatedWorld.release 0 with
    records := completeEffect updatedWorld.records sampleTenant [0x6B] ⟨3⟩ "done"
    recorded := [([0x6B], "done")] }

theorem run_recordedWorld :
    Machine.run World.step {} (oneAttempt.take 4) = some recordedWorld := rfl

/-- Only worker 0 was ever acting, and it has been released. -/
theorem recordedWorld_idle (worker : WorkerId) (key : List CodePoint) :
    (recordedWorld.workers worker).acting ≠ some key := by
  intro hacting
  change ((updatedWorld.release 0).workers worker).acting = _ at hacting
  obtain ⟨hother, hheld⟩ := World.acting_release hacting
  change ((actingWorld.become 0 _).workers worker).acting = _ at hheld
  rw [World.become_of_ne _ hother] at hheld
  change ((reservedWorld.become 0 _).workers worker).acting = _ at hheld
  rw [World.become_of_ne _ hother] at hheld
  cases hheld

theorem orderly_oneAttempt : Machine.Along World.step Orderly {} oneAttempt := by
  have hbegin : Orderly reservedWorld (.begin 0 sampleTenant [0x6B]) := by
    refine ⟨fun _ => Option.some_ne_none _ ∘ Eq.symm, List.not_mem_nil, ?_⟩
    rintro row hrow -
    rw [List.mem_singleton.mp hrow]
    rfl
  have hcomplete : Orderly actingWorld (.complete 0 sampleTenant [0x6B] ⟨3⟩ "done") :=
    ⟨rfl, _, List.mem_singleton.mpr rfl, rfl⟩
  have hagain : Orderly recordedWorld (.begin 1 sampleTenant [0x6B]) := by
    refine ⟨fun worker => recordedWorld_idle worker _, List.not_mem_nil, ?_⟩
    rintro row hrow -
    rw [List.mem_singleton.mp hrow]
    rfl
  have hother : Orderly recordedWorld (.begin 1 sampleTenant [0x61]) := by
    refine ⟨fun worker => recordedWorld_idle worker _, List.not_mem_nil, ?_⟩
    rintro row hrow -
    rw [List.mem_singleton.mp hrow]
    rfl
  exact ⟨trivial, hbegin, hcomplete, trivial, hagain, hother, trivial, trivial⟩

/-- The world behind the crash: the other key is abandoned. -/
def crashedWorld : World :=
  { recordedWorld.become 1 { acting := some [0x61] } with
    told := [[0x6B], [0x61]] }.crash 1

theorem one_attempt_replayed :
    beginEffect recordedWorld.records sampleTenant [0x6B] = ⟨[0x6B], true, some "done"⟩ ∧
      crashedWorld.abandoned = [[0x61]] ∧ ∀ key, crashedWorld.told.count key ≤ 1 := by
  have hprevented := effect_prevented
    (show Machine.run World.step {} oneAttempt = some crashedWorld from rfl) orderly_oneAttempt
  refine ⟨?_, rfl, hprevented.1⟩
  exact (hprevented.2 (oneAttempt.take 4) 1 sampleTenant [0x6B] (oneAttempt.drop 5)
    recordedWorld "done" rfl run_recordedWorld (List.mem_singleton.mpr rfl)).1

/-- The key is reserved, and both workers that ask are told to act. -/
theorem reserved_key_acted_on_twice :
    (Machine.run World.step {} [.reserve ⟨1⟩ [0x6B] ⟨3⟩, .begin 0 sampleTenant [0x6B],
      .begin 1 sampleTenant [0x6B]]).map (fun last => last.told.count [0x6B]) = some 2 := by
  decide +kernel

end Synthia.Attempts
