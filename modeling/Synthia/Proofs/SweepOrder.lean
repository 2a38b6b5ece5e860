import Synthia.Lib.Exceptions
import Synthia.Proofs.CheckpointSweep

/-!
# Sweeps in any order

A sweep restricts the content to what one predicate spares, and two restrictions make one,
by either predicate: a message or a feedback entry that the first takes, the second would
have taken with the same session. The work items a pass chooses its threads from are
nobody's to change here. So what any number of passes leave, in any order and with any of
them repeated, is said once: the content that no pass that returned reached, and threads
that are empty where a pass that returned chose them, and untouched where none chose them
at all. No session is counted by two passes.

A pass that raises is rolled back, but for the threads it had deleted by then.
-/

namespace Synthia

open Relational Text

/-! ## Restricting the content -/

namespace ContentStore

variable (content : ContentStore) (gone other : ChatSessionRow → Bool)

/-- A session the predicate picks has this identifier. -/
def losesSession (sessionId : SessionId) : Bool :=
  content.sessions.rows.any fun row => gone row && row.sessionId == sessionId

/-- A message of such a session has this identifier. -/
def losesMessage (messageId : MessageId) : Bool :=
  content.messages.any fun message =>
    message.messageId == messageId && content.losesSession gone message.sessionId

/-- The content without the sessions a predicate picks and what goes with them. -/
def without : ContentStore :=
  { content with
    sessions := content.sessions.delete gone
    messages := content.messages.filter fun message =>
      !content.losesSession gone message.sessionId
    steps := content.steps.filter fun step => !content.losesSession gone step.sessionId
    feedback := content.feedback.filter fun entry =>
      !(content.losesSession gone entry.sessionId ||
        content.losesMessage gone entry.messageId) }

theorem sweepChatContent_eq (tenant : TenantContext) (now : Instant) :
    (RetentionSweep.sweepChatContent content tenant now).2 =
      content.without (RetentionSweep.pastWindow tenant now) := rfl

variable {content gone other}

theorem losesSession_iff {sessionId : SessionId} :
    content.losesSession gone sessionId = true ↔
      ∃ row ∈ content.sessions.rows, gone row = true ∧ row.sessionId = sessionId := by
  simp [losesSession]

theorem losesMessage_iff {messageId : MessageId} :
    content.losesMessage gone messageId = true ↔
      ∃ message ∈ content.messages, message.messageId = messageId ∧
        content.losesSession gone message.sessionId = true := by
  simp [losesMessage]

/-- A session identifier is lost to either predicate if it is lost to the first, or to the
second in what the first leaves. -/
theorem losesSession_or (sessionId : SessionId) :
    content.losesSession (fun row => gone row || other row) sessionId =
      (content.losesSession gone sessionId ||
        (content.without gone).losesSession other sessionId) := by
  rw [Bool.eq_iff_iff, Bool.or_eq_true, losesSession_iff, losesSession_iff, losesSession_iff]
  constructor
  · rintro ⟨row, hrow, hgone, hid⟩
    cases hfirst : gone row with
    | true => exact Or.inl ⟨row, hrow, hfirst, hid⟩
    | false =>
        rw [hfirst, Bool.false_or] at hgone
        exact Or.inr ⟨row, Table.mem_delete.mpr ⟨hrow, hfirst⟩, hgone, hid⟩
  · rintro (⟨row, hrow, hgone, hid⟩ | ⟨row, hrow, hgone, hid⟩)
    · exact ⟨row, hrow, by rw [hgone, Bool.true_or], hid⟩
    · exact ⟨row, (Table.mem_delete.mp hrow).1, by rw [hgone, Bool.or_true], hid⟩

theorem losesMessage_or (messageId : MessageId) :
    content.losesMessage (fun row => gone row || other row) messageId =
      (content.losesMessage gone messageId ||
        (content.without gone).losesMessage other messageId) := by
  rw [Bool.eq_iff_iff, Bool.or_eq_true, losesMessage_iff, losesMessage_iff, losesMessage_iff]
  constructor
  · rintro ⟨message, hmessage, hid, hlost⟩
    cases hfirst : content.losesSession gone message.sessionId with
    | true => exact Or.inl ⟨message, hmessage, hid, hfirst⟩
    | false =>
        rw [losesSession_or, hfirst, Bool.false_or] at hlost
        refine Or.inr ⟨message, List.mem_filter.mpr ⟨hmessage, ?_⟩, hid, hlost⟩
        rw [hfirst]
        rfl
  · rintro (⟨message, hmessage, hid, hlost⟩ | ⟨message, hmessage, hid, hlost⟩)
    · exact ⟨message, hmessage, hid, by rw [losesSession_or, hlost, Bool.true_or]⟩
    · exact ⟨message, (List.mem_filter.mp hmessage).1, hid,
        by rw [losesSession_or, hlost, Bool.or_true]⟩

/-- **Two restrictions are one.** -/
theorem without_without :
    (content.without gone).without other =
      content.without fun row => gone row || other row := by
  have hsessions : (content.sessions.delete gone).delete other =
      content.sessions.delete fun row => gone row || other row := by
    simp only [Table.delete, List.filter_filter, Bool.not_or, Bool.and_comm]
  have hmessages : (content.without gone).messages.filter (fun message =>
        !(content.without gone).losesSession other message.sessionId) =
      content.messages.filter fun message =>
        !content.losesSession (fun row => gone row || other row) message.sessionId := by
    simp only [without, List.filter_filter, losesSession_or, Bool.not_or, Bool.and_comm]
  have hsteps : (content.without gone).steps.filter (fun step =>
        !(content.without gone).losesSession other step.sessionId) =
      content.steps.filter fun step =>
        !content.losesSession (fun row => gone row || other row) step.sessionId := by
    simp only [without, List.filter_filter, losesSession_or, Bool.not_or, Bool.and_comm]
  have hfeedback : (content.without gone).feedback.filter (fun entry =>
        !((content.without gone).losesSession other entry.sessionId ||
          (content.without gone).losesMessage other entry.messageId)) =
      content.feedback.filter fun entry =>
        !(content.losesSession (fun row => gone row || other row) entry.sessionId ||
          content.losesMessage (fun row => gone row || other row) entry.messageId) := by
    show List.filter _ (content.feedback.filter _) = _
    rw [List.filter_filter]
    refine List.filter_congr fun entry _ => ?_
    rw [losesSession_or, losesMessage_or]
    simp only [Bool.not_or]
    ac_rfl
  rw [without, hmessages, hsteps, hfeedback]
  rw [show (content.without gone).sessions = content.sessions.delete gone from rfl, hsessions]
  rfl

theorem without_none : content.without (fun _ => false) = content := by
  have hsession : ∀ sessionId, content.losesSession (fun _ => false) sessionId = false := by
    intro sessionId
    rw [Bool.eq_false_iff]
    intro h
    obtain ⟨_, _, hnone, _⟩ := losesSession_iff.mp h
    cases hnone
  have hmessage : ∀ messageId, content.losesMessage (fun _ => false) messageId = false := by
    intro messageId
    rw [Bool.eq_false_iff]
    intro h
    obtain ⟨_, _, _, hlost⟩ := losesMessage_iff.mp h
    rw [hsession] at hlost
    cases hlost
  simp [without, hsession, hmessage, Table.delete]

/-- What a restriction takes, and what it leaves. -/
theorem removed_add_length :
    rowsAffected gone content.sessions.rows + (content.without gone).sessions.rows.length =
      content.sessions.rows.length := by
  show rowsAffected gone content.sessions.rows +
    (content.sessions.rows.filter fun row => !gone row).length = _
  rw [rowsAffected, List.countP_eq_length_filter]
  exact (List.length_eq_length_filter_add gone).symm

end ContentStore

/-! ## One pass -/

namespace CheckpointSweep

variable {Store Checkpoint : Type}

structure Pass where
  tenant : TenantContext
  now : Instant
  overrides : RetentionOverrides

namespace Pass

variable (pass : Pass)

def sweep (saver : CheckpointSaver Store Checkpoint) (content : ContentStore)
    (threads : Store) : Swept Store :=
  sweepTenant saver content threads pass.tenant pass.now pass.overrides

/-- The pass deletes the session, should it return. -/
def reaches (row : ChatSessionRow) : Bool := RetentionSweep.pastWindow pass.tenant pass.now row

/-- The pass chooses the thread. -/
def Picks (content : ContentStore) (threadId : List CodePoint) : Prop :=
  ∃ threadIds, eligibleCheckpointThreads content.workItems pass.tenant pass.now
    pass.overrides = .ok threadIds ∧ threadId ∈ threadIds

variable {pass} {saver : CheckpointSaver Store Checkpoint} {content : ContentStore}
  {threads : Store}

/-- How a pass goes: it cannot tell what is past its window, or it prunes what it chose. -/
theorem sweep_cases :
    (∃ error, eligibleCheckpointThreads content.workItems pass.tenant pass.now
        pass.overrides = .error error ∧
      pass.sweep saver content threads =
        ⟨.error (.date error), content.without pass.reaches, threads⟩) ∨
      ∃ threadIds, eligibleCheckpointThreads content.workItems pass.tenant pass.now
          pass.overrides = .ok threadIds ∧
        pass.sweep saver content threads =
          ⟨(pruneFrom saver 0 threads threadIds).1.map fun count =>
              ⟨pass.tenant.tenantId, rowsAffected pass.reaches content.sessions.rows,
                threadIds.length, count⟩,
            content.without pass.reaches, (pruneFrom saver 0 threads threadIds).2⟩ := by
  have hcontent : (RetentionSweep.sweepChatContent content pass.tenant pass.now).2 =
      content.without pass.reaches :=
    content.sweepChatContent_eq pass.tenant pass.now
  have hitems : (content.without pass.reaches).workItems = content.workItems := rfl
  simp only [sweep, sweepTenant, hcontent, hitems]
  cases eligibleCheckpointThreads content.workItems pass.tenant pass.now pass.overrides with
  | error error => exact Or.inl ⟨error, rfl, rfl⟩
  | ok threadIds => exact Or.inr ⟨threadIds, rfl, rfl⟩

/-- A pass empties a thread or leaves it alone, and touches only threads it chooses. -/
theorem sweep_held (saver : CheckpointSaver Store Checkpoint) (content : ContentStore)
    (threads : Store) (threadId : List CodePoint) :
    (saver.held (pass.sweep saver content threads).threads threadId = [] ∨
        saver.held (pass.sweep saver content threads).threads threadId =
          saver.held threads threadId) ∧
      (¬ pass.Picks content threadId →
        saver.held (pass.sweep saver content threads).threads threadId =
          saver.held threads threadId) := by
  rcases @sweep_cases Store Checkpoint pass saver content threads with
    ⟨error, -, hsweep⟩ | ⟨threadIds, helig, hsweep⟩
  · rw [hsweep]
    exact ⟨Or.inr rfl, fun _ => rfl⟩
  · rw [hsweep]
    refine ⟨held_pruneFrom saver 0 threads threadIds threadId, fun hnot => ?_⟩
    exact held_pruneFrom_other fun hmem => hnot ⟨threadIds, helig, hmem⟩

/-- What a pass that returned has done. -/
theorem sweep_ok {result : SweepResult}
    (h : (pass.sweep saver content threads).result = .ok result) :
    (pass.sweep saver content threads).committed content = content.without pass.reaches ∧
      result.sessionsRemoved = rowsAffected pass.reaches content.sessions.rows ∧
      ∀ threadId, pass.Picks content threadId →
        saver.held (pass.sweep saver content threads).threads threadId = [] := by
  have hcommitted : (pass.sweep saver content threads).committed content =
      (pass.sweep saver content threads).content := by
    rw [Swept.committed, h]
  rw [hcommitted]
  rcases @sweep_cases Store Checkpoint pass saver content threads with
    ⟨error, -, hsweep⟩ | ⟨threadIds, helig, hsweep⟩
  · rw [hsweep] at h
    cases h
  · rw [hsweep] at h ⊢
    obtain ⟨count, hcount, hresult⟩ := Exceptions.map_eq_ok.mp h
    refine ⟨rfl, by rw [← hresult], ?_⟩
    rintro threadId ⟨picked, hpicked, hmem⟩
    rw [helig] at hpicked
    injection hpicked with hpicked
    rw [← hpicked] at hmem
    exact held_pruneFrom_ok hcount hmem

theorem sweep_error {error : SweepError}
    (h : (pass.sweep saver content threads).result = .error error) :
    (pass.sweep saver content threads).committed content = content := by
  rw [Swept.committed, h]

end Pass

/-! ## Any passes -/

/-- Passes after one another, each in a transaction of its own: what each came to, and the
tables and the threads after them. -/
def sweepAll (saver : CheckpointSaver Store Checkpoint) (content : ContentStore)
    (threads : Store) :
    List Pass → List (Pass × Except SweepError SweepResult) × ContentStore × Store
  | [] => ([], content, threads)
  | pass :: passes =>
      let swept := pass.sweep saver content threads
      let rest := sweepAll saver (swept.committed content) swept.threads passes
      ((pass, swept.result) :: rest.1, rest.2)

/-- The passes that returned. -/
def returned (outcomes : List (Pass × Except SweepError SweepResult)) : List Pass :=
  (outcomes.filter fun outcome => outcome.2.isOk).map Prod.fst

/-- The sessions the passes report as removed. -/
def reported (outcomes : List (Pass × Except SweepError SweepResult)) : Nat :=
  (outcomes.map fun outcome => (outcome.2.toOption.map SweepResult.sessionsRemoved).getD 0).sum

section Outcomes

variable {pass : Pass} {outcomes : List (Pass × Except SweepError SweepResult)}

theorem returned_ok {result : SweepResult} :
    returned ((pass, .ok result) :: outcomes) = pass :: returned outcomes := rfl

theorem returned_error {error : SweepError} :
    returned ((pass, .error error) :: outcomes) = returned outcomes := rfl

theorem reported_ok {result : SweepResult} :
    reported ((pass, .ok result) :: outcomes) =
      result.sessionsRemoved + reported outcomes := rfl

theorem reported_error {error : SweepError} :
    reported ((pass, .error error) :: outcomes) = reported outcomes := Nat.zero_add _

end Outcomes

/-- Empty or as it was, and then again, is empty or as it was. -/
theorem held_through {first middle last : List Checkpoint}
    (hfirst : middle = [] ∨ middle = first) (hlast : last = [] ∨ last = middle) :
    last = [] ∨ last = first := by
  rcases hlast with hnil | rfl
  · exact Or.inl hnil
  · exact hfirst

/-- **Sweeps in any order.** However often passes are run, whichever of them raise, and in
whatever order: the content left is what no pass that returned reaches; the sessions gone
are as many as the passes report, which is all that a pass reports of the content; and a
thread is as it was or empty, empty if a pass that returned chooses it, and as it was if none
chooses it. -/
theorem sweepAll_leaves (saver : CheckpointSaver Store Checkpoint) (content : ContentStore)
    (threads : Store) (passes : List Pass) :
    (sweepAll saver content threads passes).2.1 =
        content.without (fun row =>
          (returned (sweepAll saver content threads passes).1).any fun pass =>
            pass.reaches row) ∧
      reported (sweepAll saver content threads passes).1 +
          (sweepAll saver content threads passes).2.1.sessions.rows.length =
        content.sessions.rows.length ∧
      ∀ threadId,
        (saver.held (sweepAll saver content threads passes).2.2 threadId = [] ∨
          saver.held (sweepAll saver content threads passes).2.2 threadId =
            saver.held threads threadId) ∧
        ((∃ pass ∈ returned (sweepAll saver content threads passes).1,
            pass.Picks content threadId) →
          saver.held (sweepAll saver content threads passes).2.2 threadId = []) ∧
        ((∀ pass ∈ passes, ¬ pass.Picks content threadId) →
          saver.held (sweepAll saver content threads passes).2.2 threadId =
            saver.held threads threadId) := by
  induction passes generalizing content threads with
  | nil =>
      refine ⟨ContentStore.without_none.symm, Nat.zero_add _, fun threadId => ?_⟩
      refine ⟨Or.inr rfl, ?_, fun _ => rfl⟩
      rintro ⟨_, hnone, _⟩
      cases hnone
  | cons pass passes ih =>
      obtain ⟨hcontent, hcount, hthreads⟩ := ih
        ((pass.sweep saver content threads).committed content)
        (pass.sweep saver content threads).threads
      have hheld := @Pass.sweep_held Store Checkpoint pass saver content threads
      simp only [sweepAll]
      cases hresult : (pass.sweep saver content threads).result with
      | error error =>
          rw [Pass.sweep_error hresult] at hcontent hcount hthreads ⊢
          rw [returned_error, reported_error]
          refine ⟨hcontent, hcount, fun threadId => ?_⟩
          obtain ⟨hkept, hempty, hsame⟩ := hthreads threadId
          refine ⟨held_through (hheld threadId).1 hkept, hempty, fun hnone => ?_⟩
          obtain ⟨hfirst, hrest⟩ := List.forall_mem_cons.mp hnone
          rw [hsame hrest, (hheld threadId).2 hfirst]
      | ok result =>
          obtain ⟨hcommitted, hremoved, hpicked⟩ := Pass.sweep_ok hresult
          rw [hcommitted] at hcontent hcount hthreads ⊢
          rw [returned_ok, reported_ok, hremoved]
          refine ⟨hcontent.trans ContentStore.without_without, ?_, fun threadId => ?_⟩
          · have hlength := @ContentStore.removed_add_length content pass.reaches
            omega
          · obtain ⟨hkept, hempty, hsame⟩ := hthreads threadId
            refine ⟨held_through (hheld threadId).1 hkept, ?_, fun hnone => ?_⟩
            · rintro ⟨other, hother, hpicks⟩
              rcases List.mem_cons.mp hother with rfl | hlater
              · rcases hkept with hnil | hstays
                · exact hnil
                · rw [hstays, hpicked threadId hpicks]
              · exact hempty ⟨other, hlater, hpicks⟩
            · obtain ⟨hfirst, hrest⟩ := List.forall_mem_cons.mp hnone
              rw [hsame hrest, (hheld threadId).2 hfirst]

end CheckpointSweep

end Synthia
