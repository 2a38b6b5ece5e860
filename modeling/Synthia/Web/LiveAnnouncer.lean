import Synthia.Web.ChatShell

/-!
# What a screen reader hears of a turn

`LiveAnnouncer` of the design system, and the calls the chat surface makes to it. The
announcer keeps for each stream the text it was last given and announces what is new in the
next one; the surface gives it the text of the turn as it accumulates, under the session,
and ends the stream where the turn does.

The surface forgets its text when it sends, the announcer when the stream is ended. Where
more text comes behind the end of a turn the two disagree: the text that was heard is taken
for new, and heard again. That is the one way to hear other than what is shown. A turn is
heard as it is shown exactly where nothing follows an end that has text before it.
-/

namespace Synthia

open Text Json

inductive Politeness where
  | polite
  | assertive
  deriving DecidableEq, Repr

/-- The text of each region, where there is one, and of each stream. -/
structure LiveAnnouncer where
  regions : Politeness → Option (List CodeUnit) := fun _ => none
  announced : List CodeUnit → Option (List CodeUnit) := fun _ => none

namespace LiveAnnouncer

def put (announcer : LiveAnnouncer) (politeness : Politeness) (text : List CodeUnit) :
    LiveAnnouncer :=
  { announcer with regions := Function.update announcer.regions politeness (some text) }

def announce (announcer : LiveAnnouncer) (message : List CodeUnit)
    (politeness : Politeness := .polite) : LiveAnnouncer :=
  let text := trim message
  if text.isEmpty then announcer else announcer.put politeness text

/-- With the delta that is announced. -/
def announceDelta (announcer : LiveAnnouncer) (streamKey fullText : List CodeUnit)
    (politeness : Politeness := .polite) : List CodeUnit × LiveAnnouncer :=
  let previous := (announcer.announced streamKey).getD []
  if fullText = previous then ([], announcer)
  else
    let delta :=
      if previous.isPrefixOf fullText then fullText.drop previous.length else fullText
    let announcer :=
      { announcer with
        announced := Function.update announcer.announced streamKey (some fullText) }
    (delta, announcer.announce delta politeness)

def endStream (announcer : LiveAnnouncer) (streamKey : List CodeUnit) : LiveAnnouncer :=
  { announcer with announced := Function.update announcer.announced streamKey none }

def clear (announcer : LiveAnnouncer) (politeness : Politeness := .polite) : LiveAnnouncer :=
  announcer.put politeness []

/-- What of a stream has been announced. -/
def heardOf (announcer : LiveAnnouncer) (streamKey : List CodeUnit) : List CodeUnit :=
  (announcer.announced streamKey).getD []

/-! ## What the calls do to the streams -/

variable (announcer : LiveAnnouncer) (message streamKey other : List CodeUnit)
  (politeness : Politeness)

@[simp] theorem heardOf_announce :
    (announcer.announce message politeness).heardOf other = announcer.heardOf other := by
  unfold announce
  dsimp only
  split <;> rfl

@[simp] theorem heardOf_endStream : (announcer.endStream streamKey).heardOf streamKey = [] := by
  simp [heardOf, endStream]

/-- The stream holds what it was last given. -/
@[simp] theorem heardOf_announceDelta :
    (announcer.announceDelta streamKey message politeness).2.heardOf streamKey = message := by
  unfold announceDelta
  dsimp only
  split
  · next hsame => exact hsame.symm
  · rw [heardOf_announce]
    simp [heardOf]

/-- The region is given the message without the space around it, and keeps what it has where
nothing is left of that. -/
theorem announce_regions :
    (announcer.announce message politeness).regions politeness =
      if (trim message).isEmpty then announcer.regions politeness else some (trim message) := by
  unfold announce
  dsimp only
  split
  · rfl
  · exact Function.update_self _ _ _

theorem announceDelta_regions :
    (announcer.announceDelta streamKey message politeness).2.regions politeness =
      if (trim (announcer.announceDelta streamKey message politeness).1).isEmpty then
        announcer.regions politeness
      else some (trim (announcer.announceDelta streamKey message politeness).1) := by
  by_cases hsame : message = (announcer.announced streamKey).getD []
  · have hnothing : announcer.announceDelta streamKey message politeness = ([], announcer) :=
      if_pos hsame
    rw [hnothing]
    rfl
  · unfold announceDelta
    dsimp only
    rw [if_neg hsame]
    exact announce_regions _ _ _

/-- A text that goes on is announced from where it goes on. -/
theorem announceDelta_append (more : List CodeUnit) :
    (announcer.announceDelta streamKey (announcer.heardOf streamKey ++ more) politeness).1 =
      more := by
  have hprevious : (announcer.announced streamKey).getD [] = announcer.heardOf streamKey := rfl
  have hstarts : (announcer.heardOf streamKey).isPrefixOf
      (announcer.heardOf streamKey ++ more) = true :=
    List.isPrefixOf_iff_prefix.mpr (List.prefix_append _ _)
  unfold announceDelta
  dsimp only
  rw [hprevious, if_pos hstarts, List.drop_left]
  split
  · next hsame => exact (List.append_right_eq_self.mp hsame).symm
  · rfl

end LiveAnnouncer

/-! ## The surface and its announcer -/

/-- The surface, the announcer it shares with everything on the page, and the session its
subscription was made for. -/
structure AnnouncedShell where
  shell : ChatShell := {}
  announcer : LiveAnnouncer := {}
  subscribed : Option (List CodeUnit) := none

namespace AnnouncedShell

def interruptFallback : List CodeUnit :=
  units "This is waiting on a decision before anything happens."

/-- The members of every object. A kind of that name is not missing from the table. -/
def inheritedMembers : List (List CodeUnit) :=
  [units "constructor", units "hasOwnProperty", units "isPrototypeOf",
    units "propertyIsEnumerable", units "toLocaleString", units "toString", units "valueOf",
    units "__proto__", units "__defineGetter__", units "__defineSetter__",
    units "__lookupGetter__", units "__lookupSetter__"]

/-- What an interrupt is announced as; `none` where that is no text, and raises. -/
def interruptAnnouncement (kind : List CodeUnit) : Option (List CodeUnit) :=
  if kind = units "clarification" then some (units "A question is waiting for your answer.")
  else if kind = units "consent" ∨ kind = units "end_user_approval" then
    some (units "Your permission is needed before anything happens.")
  else if kind = units "staff_approval" then
    some (units "This is waiting for a member of the support team to decide.")
  else if inheritedMembers.contains kind then none
  else some interruptFallback

/-- The announcements of `fail`. -/
def failed (announcer : LiveAnnouncer) (sessionId title : List CodeUnit) : LiveAnnouncer :=
  (announcer.endStream sessionId).announce title .assertive

/-- The announcer behind an event, with what the event announced of the turn's text. -/
def announcing (announcer : LiveAnnouncer) (sessionId streamed : List CodeUnit) :
    StreamEvent → List CodeUnit × LiveAnnouncer
  | .token text => announcer.announceDelta sessionId (streamed ++ text)
  | .step step => ([], announcer.announce ((asString (step.member (units "label"))).getD []))
  | .interrupt interrupt _ =>
      ([], ((interruptAnnouncement interrupt).map fun sentence =>
        announcer.announce sentence .assertive).getD announcer)
  | .done => ([], announcer.endStream sessionId)
  | .error title => ([], failed announcer sessionId title)

/-- `send`, where it is not refused: the stream of the session is ended, and whatever was
subscribed to is not any more. -/
def send (surface : AnnouncedShell) (sessionId content : List CodeUnit) :
    Option AnnouncedShell :=
  (surface.shell.send content).map fun started =>
    ⟨started.1, surface.announcer.endStream sessionId, some sessionId⟩

/-- What happens to the surface during a turn, or elsewhere on the page. -/
inductive Happening where
  | signal (signal : Signal)
  | announced (message : List CodeUnit) (politeness : Politeness)
  | cleared (politeness : Politeness)

/-- What was announced of the turn's text, and the surface behind it. -/
def step (surface : AnnouncedShell) : Happening → List CodeUnit × AnnouncedShell
  | .signal signal =>
      match surface.subscribed with
      | none => ([], surface)
      | some sessionId =>
          let announcing :=
            match signal with
            | .next event => announcing surface.announcer sessionId surface.shell.streamed event
            | .error => ([], failed surface.announcer sessionId
                (units "The connection was lost before the turn finished."))
            | .complete => ([], surface.announcer)
          (announcing.1, ⟨surface.shell.signalled signal, announcing.2, some sessionId⟩)
  | .announced message politeness =>
      ([], { surface with announcer := surface.announcer.announce message politeness })
  | .cleared politeness =>
      ([], { surface with announcer := surface.announcer.clear politeness })

/-- What is heard of the text over a turn, as it is announced, and the surface behind it. -/
def run (surface : AnnouncedShell) : List Happening → List CodeUnit × AnnouncedShell
  | [] => ([], surface)
  | happening :: rest =>
      ((surface.step happening).1 ++ ((surface.step happening).2.run rest).1,
        ((surface.step happening).2.run rest).2)

theorem run_append (surface : AnnouncedShell) (before behind : List Happening) :
    surface.run (before ++ behind) =
      ((surface.run before).1 ++ ((surface.run before).2.run behind).1,
        ((surface.run before).2.run behind).2) := by
  induction before generalizing surface with
  | nil => rfl
  | cons happening before ih =>
      rw [List.cons_append, run, run, ih, List.append_assoc]

/-! ## One happening -/

/-- The polite region is given what is announced of the text, trimmed, and is left as it is
where that is blank. -/
def Tells (surface : AnnouncedShell) (happening : Happening) : Prop :=
  (surface.step happening).2.announcer.regions .polite =
    if (trim (surface.step happening).1).isEmpty then surface.announcer.regions .polite
    else some (trim (surface.step happening).1)

namespace Happening

/-- The text it adds to the turn. -/
def text : Happening → List CodeUnit
  | .signal (.next event) => ChatShell.tokenText event
  | _ => []

def IsToken : Happening → Prop
  | .signal (.next (.token _)) => True
  | _ => False

/-- It ends the stream. -/
def Ends : Happening → Prop
  | .signal .error | .signal (.next .done) | .signal (.next (.error _)) => True
  | _ => False

theorem Ends.not_isToken {happening : Happening} (h : happening.Ends) :
    ¬ happening.IsToken := by
  cases happening with
  | signal signal =>
      cases signal with
      | next event => cases event <;> simp_all [Ends, IsToken]
      | error | complete => exact id
  | announced | cleared => exact id

end Happening

open LiveAnnouncer

section Step

variable {surface : AnnouncedShell} {sessionId : List CodeUnit} {happening : Happening}

theorem step_subscribed (hsubscribed : surface.subscribed = some sessionId) :
    (surface.step happening).2.subscribed = some sessionId := by
  cases happening with
  | signal signal => simp [step, hsubscribed]
  | announced message politeness => exact hsubscribed
  | cleared politeness => exact hsubscribed

theorem step_streamed (hsubscribed : surface.subscribed = some sessionId) :
    (surface.step happening).2.shell.streamed = surface.shell.streamed ++ happening.text := by
  cases happening with
  | signal signal =>
      simp only [step, hsubscribed]
      cases signal with
      | next event => exact surface.shell.apply_streamed event
      | error | complete => exact (List.append_nil _).symm
  | announced | cleared => exact (List.append_nil _).symm

/-- The three kinds of happenings: a token is announced against what was heard, an end
forgets what was heard, and anything else leaves it alone. -/
theorem step_cases (hsubscribed : surface.subscribed = some sessionId) :
    (happening.IsToken ∧ (surface.step happening).1 =
        (surface.announcer.announceDelta sessionId
          (surface.shell.streamed ++ happening.text)).1 ∧
        (surface.step happening).2.announcer.heardOf sessionId =
          surface.shell.streamed ++ happening.text) ∨
      (happening.Ends ∧ ¬ happening.IsToken ∧ happening.text = [] ∧
        (surface.step happening).1 = [] ∧
        (surface.step happening).2.announcer.heardOf sessionId = []) ∨
      (¬ happening.Ends ∧ ¬ happening.IsToken ∧ happening.text = [] ∧
        (surface.step happening).1 = [] ∧
        (surface.step happening).2.announcer.heardOf sessionId =
          surface.announcer.heardOf sessionId) := by
  cases happening with
  | announced message politeness =>
      exact .inr (.inr ⟨id, id, rfl, rfl, heardOf_announce _ _ _ _⟩)
  | cleared politeness => exact .inr (.inr ⟨id, id, rfl, rfl, rfl⟩)
  | signal signal =>
      simp only [step, hsubscribed]
      cases signal with
      | complete => exact .inr (.inr ⟨id, id, rfl, rfl, rfl⟩)
      | error => exact .inr (.inl ⟨trivial, id, rfl, rfl, by simp [failed]⟩)
      | next event =>
          cases event with
          | token text =>
              exact .inl ⟨trivial, rfl, heardOf_announceDelta _ _ _ _⟩
          | step step => exact .inr (.inr ⟨id, id, rfl, rfl, heardOf_announce _ _ _ _⟩)
          | interrupt kind workItemId =>
              refine .inr (.inr ⟨id, id, rfl, rfl, ?_⟩)
              simp only [announcing]
              cases interruptAnnouncement kind with
              | none => rfl
              | some sentence => exact heardOf_announce _ _ _ _
          | done => exact .inr (.inl ⟨trivial, id, rfl, rfl, heardOf_endStream _ _⟩)
          | error title => exact .inr (.inl ⟨trivial, id, rfl, rfl, by simp [announcing, failed]⟩)

theorem tells_token (hsubscribed : surface.subscribed = some sessionId)
    (text : List CodeUnit) : surface.Tells (.signal (.next (.token text))) := by
  simp only [Tells, step, hsubscribed]
  exact announceDelta_regions _ _ _ _

end Step

/-! ## A turn -/

section Turn

variable {surface : AnnouncedShell} {sessionId : List CodeUnit}

theorem run_subscribed (hsubscribed : surface.subscribed = some sessionId)
    (turn : List Happening) : (surface.run turn).2.subscribed = some sessionId := by
  induction turn generalizing surface with
  | nil => exact hsubscribed
  | cons happening turn ih => exact ih (step_subscribed hsubscribed)

/-- The surface shows what came, whatever was heard. -/
theorem run_streamed (hsubscribed : surface.subscribed = some sessionId)
    (turn : List Happening) :
    (surface.run turn).2.shell.streamed =
      surface.shell.streamed ++ turn.flatMap Happening.text := by
  induction turn generalizing surface with
  | nil => exact (List.append_nil _).symm
  | cons happening turn ih =>
      rw [run, ih (step_subscribed hsubscribed), step_streamed hsubscribed,
        List.flatMap_cons, List.append_assoc]

/-- What was heard is what is shown, or nothing since the stream was ended. -/
def Follows (surface : AnnouncedShell) (sessionId : List CodeUnit) : Prop :=
  surface.announcer.heardOf sessionId = surface.shell.streamed ∨
    surface.announcer.heardOf sessionId = []

theorem step_follows (hsubscribed : surface.subscribed = some sessionId)
    (h : surface.Follows sessionId) (happening : Happening) :
    (surface.step happening).2.Follows sessionId ∧
      happening.text.length ≤ (surface.step happening).1.length := by
  rw [Follows, step_streamed hsubscribed]
  rcases step_cases hsubscribed with
    ⟨-, hdelta, hheard⟩ | ⟨-, -, htext, hdelta, hheard⟩ | ⟨-, -, htext, hdelta, hheard⟩
  · refine ⟨.inl hheard, ?_⟩
    rw [hdelta]
    rcases h with h | h
    · rw [← h, announceDelta_append]
    · have hall := announceDelta_append surface.announcer sessionId .polite
        (surface.shell.streamed ++ happening.text)
      rw [h, List.nil_append] at hall
      rw [hall, List.length_append]
      omega
  · rw [htext, hheard]
    exact ⟨.inr rfl, Nat.zero_le _⟩
  · rw [htext, hheard, List.append_nil]
    exact ⟨h, Nat.zero_le _⟩

/-- Nothing that is shown goes unheard. -/
theorem run_follows (hsubscribed : surface.subscribed = some sessionId)
    (h : surface.Follows sessionId) (turn : List Happening) :
    (surface.run turn).2.Follows sessionId ∧
      (turn.flatMap Happening.text).length ≤ (surface.run turn).1.length := by
  induction turn generalizing surface with
  | nil => exact ⟨h, Nat.zero_le _⟩
  | cons happening turn ih =>
      obtain ⟨hnext, hhere⟩ := step_follows hsubscribed h happening
      obtain ⟨hlast, hrest⟩ := ih (step_subscribed hsubscribed) hnext
      refine ⟨hlast, ?_⟩
      rw [run, List.flatMap_cons, List.length_append, List.length_append]
      omega

/-- Behind an end, the first text to come is heard together with all that was shown. -/
theorem run_repeated (hsubscribed : surface.subscribed = some sessionId)
    (h : surface.announcer.heardOf sessionId = []) (hshown : surface.shell.streamed ≠ [])
    {turn : List Happening} (htoken : ∃ happening ∈ turn, happening.IsToken) :
    (turn.flatMap Happening.text).length < (surface.run turn).1.length := by
  induction turn generalizing surface with
  | nil =>
      obtain ⟨_, hmem, -⟩ := htoken
      cases hmem
  | cons happening turn ih =>
      have hsubscribed' := @step_subscribed surface sessionId happening hsubscribed
      obtain ⟨hnext, hhere⟩ := step_follows hsubscribed (.inr h) happening
      have hrest := (run_follows hsubscribed' hnext turn).2
      rw [run, List.flatMap_cons, List.length_append, List.length_append]
      have hshown' : (surface.step happening).2.shell.streamed ≠ [] := by
        rw [step_streamed hsubscribed]
        exact List.append_ne_nil_of_left_ne_nil hshown _
      have hlater : ¬ happening.IsToken → ∃ later ∈ turn, later.IsToken := by
        intro hnot
        obtain ⟨token, hmem, htoken⟩ := htoken
        rcases List.mem_cons.mp hmem with rfl | hmem
        · exact absurd htoken hnot
        · exact ⟨token, hmem, htoken⟩
      rcases step_cases hsubscribed with
        ⟨-, hdelta, -⟩ | ⟨-, hnot, -, -, hheard⟩ | ⟨-, hnot, -, -, hheard⟩
      · have hall := announceDelta_append surface.announcer sessionId .polite
          (surface.shell.streamed ++ happening.text)
        rw [h, List.nil_append] at hall
        have hpositive := List.length_pos_iff.mpr hshown
        rw [hdelta, hall, List.length_append]
        omega
      · have hlonger := ih hsubscribed' hheard hshown' (hlater hnot)
        omega
      · have hlonger := ih hsubscribed' (hheard.trans h) hshown' (hlater hnot)
        omega

/-- So a text behind an end that has text before it makes more be heard than there is. -/
theorem run_longer (hsubscribed : surface.subscribed = some sessionId)
    (h : surface.Follows sessionId) {before after : List Happening} {ending : Happening}
    (hends : ending.Ends)
    (hshown : surface.shell.streamed ++ before.flatMap Happening.text ≠ [])
    (htoken : ∃ happening ∈ after, happening.IsToken) :
    ((before ++ ending :: after).flatMap Happening.text).length <
      (surface.run (before ++ ending :: after)).1.length := by
  obtain ⟨hfollows, hbefore⟩ := run_follows hsubscribed h before
  have hreached := run_subscribed hsubscribed before
  have hstreamed := run_streamed hsubscribed before
  have hending := (step_follows hreached hfollows ending).2
  have hended : ((surface.run before).2.step ending).2.announcer.heardOf sessionId = [] := by
    rcases step_cases hreached with ⟨htoken, -⟩ | ⟨-, -, -, -, hheard⟩ | ⟨hnot, -⟩
    · exact absurd htoken hends.not_isToken
    · exact hheard
    · exact absurd hends hnot
  have hshown' : ((surface.run before).2.step ending).2.shell.streamed ≠ [] := by
    rw [step_streamed hreached, hstreamed]
    exact List.append_ne_nil_of_left_ne_nil hshown _
  have hafter := run_repeated (step_subscribed hreached) hended hshown' htoken
  rw [run_append, run, List.flatMap_append, List.flatMap_cons]
  simp only [List.length_append]
  omega

theorem run_silent (hsubscribed : surface.subscribed = some sessionId) {turn : List Happening}
    (hnot : ∀ happening ∈ turn, ¬ happening.IsToken) :
    (surface.run turn).1 = turn.flatMap Happening.text := by
  induction turn generalizing surface with
  | nil => rfl
  | cons happening turn ih =>
      have hrest := ih (@step_subscribed surface sessionId happening hsubscribed)
        fun later hlater => hnot later (List.mem_cons_of_mem _ hlater)
      rw [run, List.flatMap_cons, hrest]
      rcases step_cases hsubscribed with
        ⟨htoken, -⟩ | ⟨-, -, htext, hdelta, -⟩ | ⟨-, -, htext, hdelta, -⟩
      · exact absurd htoken (hnot happening (List.mem_cons_self ..))
      · rw [hdelta, htext]
      · rw [hdelta, htext]

/-- No text comes behind an end of the turn that has text before it, counting what was shown
already. -/
def Unrepeated (shown : List CodeUnit) (turn : List Happening) : Prop :=
  ∀ before ending after, turn = before ++ ending :: after → ending.Ends →
    shown ++ before.flatMap Happening.text ≠ [] → ∀ happening ∈ after, ¬ happening.IsToken

theorem Unrepeated.tail {shown : List CodeUnit} {happening : Happening}
    {turn : List Happening} (h : Unrepeated shown (happening :: turn)) :
    Unrepeated (shown ++ happening.text) turn := by
  intro before ending after hturn hends htext
  refine h (happening :: before) ending after (by rw [hturn]; rfl) hends ?_
  rw [List.flatMap_cons, ← List.append_assoc]
  exact htext

theorem run_once (hsubscribed : surface.subscribed = some sessionId)
    (h : surface.announcer.heardOf sessionId = surface.shell.streamed)
    {turn : List Happening} (honce : Unrepeated surface.shell.streamed turn) :
    (surface.run turn).1 = turn.flatMap Happening.text := by
  induction turn generalizing surface with
  | nil => rfl
  | cons happening turn ih =>
      have hsubscribed' := @step_subscribed surface sessionId happening hsubscribed
      have hstreamed := @step_streamed surface sessionId happening hsubscribed
      have honce' := honce.tail
      rw [← hstreamed] at honce'
      rw [run, List.flatMap_cons]
      rcases step_cases hsubscribed with
        ⟨-, hdelta, hheard⟩ | ⟨hends, -, htext, hdelta, hheard⟩ | ⟨-, -, htext, hdelta, hheard⟩
      · rw [hdelta, ← h, announceDelta_append, ih hsubscribed' (hheard.trans hstreamed.symm) honce']
      · rw [hdelta, htext]
        by_cases hshown : surface.shell.streamed = []
        · rw [hshown, htext, List.append_nil] at hstreamed
          rw [ih hsubscribed' (hheard.trans hstreamed.symm) honce']
        · rw [run_silent hsubscribed' (honce [] happening turn rfl hends (by simpa using hshown))]
      · rw [hdelta, htext]
        rw [htext, List.append_nil, ← h, ← hheard] at hstreamed
        rw [ih hsubscribed' hstreamed.symm honce']

end Turn

theorem send_started {surface started : AnnouncedShell} {sessionId content : List CodeUnit}
    (h : surface.send sessionId content = some started) :
    started.subscribed = some sessionId ∧ started.shell.streamed = [] ∧
      started.announcer.heardOf sessionId = [] := by
  obtain ⟨sent, hsent, rfl⟩ := Option.map_eq_some_iff.mp h
  exact ⟨rfl, (ChatShell.send_eq_some hsent).1, heardOf_endStream _ _⟩

/-- **A turn is heard as it is shown.** Whatever was announced before it, and whatever else
the page announces meanwhile: of the text of a turn, that which is heard is that which is
shown, each piece once and in order, exactly if no token comes behind an end of the turn
that has text before it. What is heard at a token is given to the polite region trimmed, and
not at all where it is blank. -/
theorem heard_as_shown_iff {surface started : AnnouncedShell}
    {sessionId content : List CodeUnit} (h : surface.send sessionId content = some started)
    (turn : List Happening) :
    ((started.run turn).1 = (started.run turn).2.shell.streamed ↔ Unrepeated [] turn) ∧
      ∀ before text after, turn = before ++ .signal (.next (.token text)) :: after →
        (started.run before).2.Tells (.signal (.next (.token text))) := by
  obtain ⟨hsubscribed, hstreamed, hheard⟩ := send_started h
  refine ⟨?_, fun before text _ _ => tells_token (run_subscribed hsubscribed before) text⟩
  have hsync : started.announcer.heardOf sessionId = started.shell.streamed := by
    rw [hheard, hstreamed]
  rw [run_streamed hsubscribed, hstreamed, List.nil_append, ← hstreamed]
  constructor
  · intro hsame before ending after hturn hends htext happening hmem htoken
    rw [hturn] at hsame
    have hlonger := run_longer hsubscribed (.inl hsync) hends htext ⟨happening, hmem, htoken⟩
    rw [hsame] at hlonger
    exact absurd hlonger (lt_irrefl _)
  · exact run_once hsubscribed hsync

/-- A token behind the end: the text that was heard is heard again. -/
theorem heard_as_shown_iff_again :
    ∃ started, send {} (units "s1") (units "Hello") = some started ∧
      (started.run [.signal (.next (.token (units "Wait"))), .signal (.next .done),
        .signal (.next (.token (units ".")))]).1 = units "WaitWait." ∧
      ¬ Unrepeated [] [.signal (.next (.token (units "Wait"))), .signal (.next .done),
        .signal (.next (.token (units ".")))] := by
  obtain ⟨started, hstarted, hheard, hshown⟩ : ∃ started,
      send {} (units "s1") (units "Hello") = some started ∧
      (started.run [.signal (.next (.token (units "Wait"))), .signal (.next .done),
        .signal (.next (.token (units ".")))]).1 = units "WaitWait." ∧
      (started.run [.signal (.next (.token (units "Wait"))), .signal (.next .done),
        .signal (.next (.token (units ".")))]).2.shell.streamed = units "Wait." :=
    ⟨_, rfl, by decide, by decide⟩
  refine ⟨started, hstarted, hheard, fun honce => ?_⟩
  have hsame := (heard_as_shown_iff hstarted _).1.mpr honce
  rw [hheard, hshown] at hsame
  exact absurd hsame (by decide)

end AnnouncedShell

end Synthia
