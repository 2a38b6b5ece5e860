import Synthia.Lib.Exceptions
import Synthia.Proofs.ScreenedSecrets

/-!
# What redaction leaves

A text that comes back from `redact` holds no match of any shape but with the marker for its
secret, where no bearer token in it was padded: an equals sign in one makes its marker
attach to the scheme, and the scheme may then end another token.

That is of each text of a record apart. A template and the argument that completes a token
in it pass one by one, and come together when the message is interpolated.
-/

namespace Synthia.Observability

open Text Regex

/-! ## Redacting -/

/-- No match of a shape is left in a text but with the marker for its secret. -/
def Screened (words : WordClass) (shape : Shape CodePoint) (text : List CodePoint) : Prop :=
  ∀ before rest found, text = before ++ rest →
    shape.find words.isWord before.getLast? rest = some found → found.tail = equals :: redacted

/-- No bearer token in a text has an equals sign in it. -/
def Unpadded (words : WordClass) (text : List CodePoint) : Prop :=
  ∀ before rest found, text = before ++ rest →
    bearer.find words.isWord before.getLast? rest = some found → equals ∉ found.text

section Redacting

variable {words : WordClass}

theorem KeepsOff.ne_nil {shape : Shape CodePoint} (hshape : KeepsOff words shape)
    (found : Match CodePoint) (h : shape.Accepts found) : found.text ≠ [] := by
  obtain ⟨u, n, c, v, htext, _⟩ := hshape.inside found h
  rw [htext]
  simp

theorem assigned_ne_nil {key : Expr CodePoint} {ended : String} (found : Match CodePoint)
    (h : (assigned key ended).Accepts found) : found.text ≠ [] := by
  obtain ⟨name, secret, _, _, htext, _⟩ := assigned_accepts h
  rw [htext]
  simp

/-- What is found nowhere stays so through the replacement of another. -/
theorem KeepsOff.kept {shape replaced : Shape CodePoint} (hshape : KeepsOff words shape)
    (hmarks : Marks replacement replaced) (hpast : Past words shape replaced)
    {old new : List CodePoint}
    (h : Shape.Substituted words.isWord replaced replacement
      (fun before text => replaced.find words.isWord before text = none) none old new)
    (hold : Shape.Throughout (fun before text => shape.find words.isWord before text = none)
      none old) :
    Shape.Throughout (fun before text => shape.find words.isWord before text = none) none
      new :=
  hshape.notFound hmarks hpast ((h.and hold).imp fun _ _ h => h.2)

theorem LeavesKeys.kept {key : Expr CodePoint} {ended : String} {replaced : Shape CodePoint}
    {spellings : List (List CodePoint)}
    (hleaves : LeavesKeys words key ended replaced replacement) (hspells : Spells key spellings)
    (hplain : spellings.all plainWord = true) (hmark : redacted.all (noneOf ended) = true)
    {old new : List CodePoint}
    (h : Shape.Substituted words.isWord replaced replacement
      (fun before text => replaced.find words.isWord before text = none) none old new)
    (hold : Shape.Throughout (KeyMarked words key ended) none old) :
    Shape.Throughout (KeyMarked words key ended) none new :=
  hleaves.keyMarked hspells hplain hmark ((h.and hold).imp fun _ _ h => h.2)

theorem Screened.of_none {shape : Shape CodePoint}
    (hne : ∀ found, shape.Accepts found → found.text ≠ []) {text : List CodePoint}
    (h : Shape.Throughout (fun before text => shape.find words.isWord before text = none) none
      text) : Screened words shape text := by
  intro before rest found htext hfind
  obtain ⟨_, after, _, hrest, haccepts⟩ := Shape.find_eq_some hfind
  have hplace := Shape.throughout_iff.mp h before rest htext (by
    rw [hrest]
    exact List.append_ne_nil_of_left_ne_nil (hne found haccepts) after)
  rw [Option.or_none, hfind] at hplace
  cases hplace

theorem Screened.of_keyMarked {key : Expr CodePoint} {ended : String} {text : List CodePoint}
    (h : Shape.Throughout (KeyMarked words key ended) none text) :
    Screened words (assigned key ended) text := by
  intro before rest found htext hfind
  obtain ⟨_, after, _, hrest, haccepts⟩ := Shape.find_eq_some hfind
  have hplace := Shape.throughout_iff.mp h before rest htext (by
    rw [hrest]
    exact List.append_ne_nil_of_left_ne_nil (assigned_ne_nil found haccepts) after)
  rw [Option.or_none] at hplace
  exact hplace.found hfind

/-! ### The tokens -/

theorem urlSafe_bearer {c : CodePoint} (h : Opens bearer c) : urlSafe c = true := by
  have hfold := fold_bearer h
  have hb : (0x62 : CodePoint).val = 0x62 := rfl
  have hi : (0x69 : CodePoint).val = 0x69 := rfl
  have hs : (0x73 : CodePoint).val = 0x73 := rfl
  have hk : (0x6B : CodePoint).val = 0x6B := rfl
  unfold fold at hfold
  rw [Fin.ext_iff, hb] at hfold
  split at hfold
  · next hupper => simp [urlSafe, hupper.1, hupper.2]
  · split at hfold
    · omega
    · split at hfold
      · omega
      · split at hfold
        · omega
        · simp [urlSafe, hfold]

theorem tokenCharacter_bearer {c : CodePoint} (h : Opens bearer c) :
    tokenCharacter c = true := by
  rw [tokenCharacter, fold_bearer h]
  rfl

theorem isLetter_bearer {c : CodePoint} (h : Opens bearer c) : isLetter (fold c) = true := by
  rw [fold_bearer h]
  decide

theorem isLetter_jwt {c : CodePoint} (h : Opens jwt c) : isLetter (fold c) = true := by
  rw [eq_jwt h]
  decide

/-- A replacement that leaves out bearer tokens with an equals sign. -/
def unpadded (found : Match CodePoint) : Except IndexError (List CodePoint) :=
  if found.text.contains equals then .error .noSuchGroup else replacement found

/-- The name of a scheme is of letters, and holds nothing a token needs inside. -/
theorem scheme_plain {name : List CodePoint}
    (hname : (caseless "bearer").Accepts name ∨ (caseless "basic").Accepts name)
    {c : CodePoint} (hc : c ∈ name) : isLetter (fold c) = true ∧ needed c = false := by
  have hletter : isLetter (fold c) = true := by
    have hbearer : (ofString "bearer").all isLetter = true := by decide
    have hbasic : (ofString "basic").all isLetter = true := by decide
    rcases hname with hname | hname
    · exact List.all_eq_true.mp hbearer _ (fold_mem hname hc)
    · exact List.all_eq_true.mp hbasic _ (fold_mem hname hc)
  refine ⟨hletter, ?_⟩
  rw [← Bool.not_eq_true, needed, Bool.or_eq_true, beq_iff_eq]
  rintro (hspace | hdot)
  · rw [fold_of_space hspace] at hletter
    have hplain := space_plain hspace
    rw [hletter] at hplain
    cases hplain
  · rw [hdot] at hletter
    exact absurd hletter (by decide)

theorem marks_bearer : Marks unpadded bearer := by
  intro found written haccepts hreplace
  obtain ⟨name, spaces, token, htext, hgroup, hname, _⟩ := bearer_accepts haccepts
  rw [unpadded] at hreplace
  split at hreplace
  · cases hreplace
  · next hequals =>
      rw [replacement, if_neg hequals, hgroup] at hreplace
      injection hreplace with hwritten
      exact ⟨name, spaces ++ token, 0x20 :: redacted, htext, hwritten.symm, Or.inr rfl,
        fun c hc => (scheme_plain hname hc).2⟩

theorem marks_jwt : Marks replacement jwt := by
  intro found written haccepts hreplace
  obtain ⟨_, _, _, _, hgroup, _⟩ := jwt_accepts haccepts
  have hequals : ¬ found.text.contains equals = true := by
    rw [List.contains_iff_mem]
    intro hmem
    exact absurd (jwt_characters haccepts hmem) (by decide)
  rw [replacement, if_neg hequals, hgroup] at hreplace
  injection hreplace with hwritten
  exact ⟨[], found.text, redacted, rfl, hwritten.symm, Or.inl rfl, fun c hc => by cases hc⟩

/-! ### The keys -/

theorem connection_connection (words : WordClass) :
    LeavesKeys words connectionKey ";\"'" connectionString replacement :=
  leavesKeys_assigned spells_connectionKey (by decide) spells_connectionKey (by decide)
    (by decide) (by decide) (by decide) (by decide) (by decide) (by decide) fun _ _ _ => rfl

theorem connection_parameter (words : WordClass) :
    LeavesKeys words connectionKey ";\"'" parameter replacement := by
  refine leavesKeys_assigned spells_connectionKey (by decide) spells_parameterKey (by decide)
    (by decide) (by decide) (by decide) (by decide) (by decide) (by decide) ?_
  intro name hconnection hparameter
  have hdisjoint : ∀ word ∈ connectionWords, word ∉ parameterWords := by decide
  exact absurd (spells_parameterKey name hparameter)
    (hdisjoint _ (spells_connectionKey name hconnection))

theorem connection_dsn (words : WordClass) :
    LeavesKeys words connectionKey ";\"'" (dsn words) replacement :=
  leavesKeys_dsn spells_connectionKey (by decide) (by decide) (by decide)

theorem parameter_parameter (words : WordClass) :
    LeavesKeys words parameterKey "&;\"'" parameter replacement :=
  leavesKeys_assigned spells_parameterKey (by decide) spells_parameterKey (by decide)
    (by decide) (by decide) (by decide) (by decide) (by decide) (by decide) fun _ _ _ => rfl

theorem parameter_dsn (words : WordClass) :
    LeavesKeys words parameterKey "&;\"'" (dsn words) replacement :=
  leavesKeys_dsn spells_parameterKey (by decide) (by decide) (by decide)

theorem past_letter {shape : Shape CodePoint} {key : Expr CodePoint} {ended : String}
    (hended : (ofString ended).all (fun c => !isLetter (fold c)) = true)
    (hopens : ∀ c, Opens shape c → isLetter (fold c) = true) :
    Past words shape (assigned key ended) :=
  past_of_endsIn (.seq .run) fun c h => noneOf_of_letter hended (hopens c h)

/-! ### The five in a row -/

theorem redact_steps {text result : List CodePoint} (h : redact words text = .ok result) :
    ∃ first second third fourth,
      bearer.sub words.isWord replacement text = .ok first ∧
      jwt.sub words.isWord replacement first = .ok second ∧
      connectionString.sub words.isWord replacement second = .ok third ∧
      parameter.sub words.isWord replacement third = .ok fourth ∧
      (dsn words).sub words.isWord replacement fourth = .ok result := by
  unfold redact sensitivePatterns at h
  obtain ⟨first, hfirst, h⟩ := Exceptions.bind_eq_ok.mp h
  obtain ⟨second, hsecond, h⟩ := Exceptions.bind_eq_ok.mp h
  obtain ⟨third, hthird, h⟩ := Exceptions.bind_eq_ok.mp h
  obtain ⟨fourth, hfourth, h⟩ := Exceptions.bind_eq_ok.mp h
  obtain ⟨fifth, hfifth, h⟩ := Exceptions.bind_eq_ok.mp h
  injection h with h
  rw [h] at hfifth
  exact ⟨first, second, third, fourth, hfirst, hsecond, hthird, hfourth, hfifth⟩

/-- After the replacement of a shape, found nowhere where nothing was written. -/
theorem sub_substituted {pattern : Shape CodePoint}
    (hne : ∀ found, pattern.Accepts found → found.text ≠ []) {text new : List CodePoint}
    (h : pattern.sub words.isWord replacement text = .ok new) :
    Shape.Substituted words.isWord pattern replacement
      (fun before text => pattern.find words.isWord before text = none) none text new :=
  Shape.substituted_subFrom hne h

/-- A token found nowhere in a text is found nowhere once keys are replaced too. -/
theorem KeepsOff.through_keys {shape : Shape CodePoint} (hshape : KeepsOff words shape)
    (hletter : ∀ c, Opens shape c → isLetter (fold c) = true)
    {second third fourth : List CodePoint}
    (hthird : connectionString.sub words.isWord replacement second = .ok third)
    (hfourth : parameter.sub words.isWord replacement third = .ok fourth)
    (hold : Shape.Throughout (fun before text => shape.find words.isWord before text = none)
      none second) :
    Shape.Throughout (fun before text => shape.find words.isWord before text = none) none
      fourth := by
  have hthirdLeft := hshape.kept (connection_connection words).marks
    (past_letter (by decide) hletter) (sub_substituted assigned_ne_nil hthird) hold
  exact hshape.kept (parameter_parameter words).marks
    (past_letter (by decide) hletter) (sub_substituted assigned_ne_nil hfourth) hthirdLeft

/-- And once DSNs are. -/
theorem KeepsOff.through_dsn {shape : Shape CodePoint} (hshape : KeepsOff words shape)
    {fourth result : List CodePoint}
    (hresult : (dsn words).sub words.isWord replacement fourth = .ok result)
    (hold : Shape.Throughout (fun before text => shape.find words.isWord before text = none)
      none fourth) :
    Shape.Throughout (fun before text => shape.find words.isWord before text = none) none
      result :=
  hshape.kept marks_dsn (past_dsn _) (sub_substituted dsn_ne_nil hresult) hold

/-- In a text with no padded token none is replaced. -/
theorem Unpadded.substituted {text first : List CodePoint} (hunpadded : Unpadded words text)
    (hfirst : bearer.sub words.isWord replacement text = .ok first) :
    Shape.Substituted words.isWord bearer unpadded
      (fun before text => bearer.find words.isWord before text = none) none text first := by
  have hsub := sub_substituted (keepsOff_bearer words).ne_nil hfirst
  refine hsub.congr_replace unpadded (Shape.throughout_iff.mpr ?_)
  intro before rest htext _ found written hfind hwritten
  rw [Option.or_none] at hfind
  have hnone := hunpadded before rest found htext hfind
  rw [unpadded, if_neg (by rw [List.contains_iff_mem]; exact hnone)]
  exact hwritten

/-- Where each token that was replaced had no equals sign, none is left before the last
pattern. -/
theorem bearer_given {text first second third fourth : List CodePoint}
    (hfirst : Shape.Substituted words.isWord bearer unpadded
      (fun before text => bearer.find words.isWord before text = none) none text first)
    (hsecond : jwt.sub words.isWord replacement first = .ok second)
    (hthird : connectionString.sub words.isWord replacement second = .ok third)
    (hfourth : parameter.sub words.isWord replacement third = .ok fourth) :
    Shape.Throughout (fun before text => bearer.find words.isWord before text = none) none
      fourth := by
  have hbearer := keepsOff_bearer words
  have hown := hbearer.notFound marks_bearer
    (past_of_endsIn (.seq .run) fun c h => tokenCharacter_bearer h) hfirst
  have hjwtLeft := hbearer.kept marks_jwt
    (past_of_endsIn (.seq (.seq (.seq (.seq (.seq .run))))) fun c h => urlSafe_bearer h)
    (sub_substituted (keepsOff_jwt words).ne_nil hsecond) hown
  exact hbearer.through_keys (fun c h => isLetter_bearer h) hthird hfourth hjwtLeft

theorem bearer_left {text first second third fourth result : List CodePoint}
    (hunpadded : Unpadded words text)
    (hfirst : bearer.sub words.isWord replacement text = .ok first)
    (hsecond : jwt.sub words.isWord replacement first = .ok second)
    (hthird : connectionString.sub words.isWord replacement second = .ok third)
    (hfourth : parameter.sub words.isWord replacement third = .ok fourth)
    (hresult : (dsn words).sub words.isWord replacement fourth = .ok result) :
    Screened words bearer result :=
  .of_none (keepsOff_bearer words).ne_nil ((keepsOff_bearer words).through_dsn hresult
    (bearer_given (hunpadded.substituted hfirst) hsecond hthird hfourth))

theorem jwt_left {first second third fourth result : List CodePoint}
    (hsecond : jwt.sub words.isWord replacement first = .ok second)
    (hthird : connectionString.sub words.isWord replacement second = .ok third)
    (hfourth : parameter.sub words.isWord replacement third = .ok fourth)
    (hresult : (dsn words).sub words.isWord replacement fourth = .ok result) :
    Screened words jwt result := by
  have hjwt := keepsOff_jwt words
  have hpast : Past words jwt jwt :=
    past_of_endsIn (.seq (.seq (.seq (.seq (.seq .run))))) fun c h => by
      rw [eq_jwt h]
      decide
  have hown := hjwt.notFound marks_jwt hpast (sub_substituted hjwt.ne_nil hsecond)
  exact .of_none hjwt.ne_nil (hjwt.through_dsn hresult
    (hjwt.through_keys (fun c h => isLetter_jwt h) hthird hfourth hown))

theorem connectionString_left {second third fourth result : List CodePoint}
    (hthird : connectionString.sub words.isWord replacement second = .ok third)
    (hfourth : parameter.sub words.isWord replacement third = .ok fourth)
    (hresult : (dsn words).sub words.isWord replacement fourth = .ok result) :
    Screened words connectionString result := by
  have hown := (connection_connection words).keyMarked spells_connectionKey (by decide)
    (by decide)
    ((sub_substituted assigned_ne_nil hthird).imp fun _ _ h => keyMarked_of_none h)
  have hfourthLeft := (connection_parameter words).kept spells_connectionKey (by decide)
    (by decide) (sub_substituted assigned_ne_nil hfourth) hown
  exact .of_keyMarked ((connection_dsn words).kept spells_connectionKey (by decide) (by decide)
    (sub_substituted dsn_ne_nil hresult) hfourthLeft)

theorem parameter_left {third fourth result : List CodePoint}
    (hfourth : parameter.sub words.isWord replacement third = .ok fourth)
    (hresult : (dsn words).sub words.isWord replacement fourth = .ok result) :
    Screened words parameter result := by
  have hown := (parameter_parameter words).keyMarked spells_parameterKey (by decide) (by decide)
    ((sub_substituted assigned_ne_nil hfourth).imp fun _ _ h => keyMarked_of_none h)
  exact .of_keyMarked ((parameter_dsn words).kept spells_parameterKey (by decide) (by decide)
    (sub_substituted dsn_ne_nil hresult) hown)

theorem dsn_left {fourth result : List CodePoint}
    (hresult : (dsn words).sub words.isWord replacement fourth = .ok result) :
    Screened words (dsn words) result :=
  .of_none dsn_ne_nil
    (dsn_notFound (sub_substituted dsn_ne_nil hresult))

/-- What `redact` returns is screened, of bearer tokens too where none was padded. -/
theorem redact_screens {text result : List CodePoint} (h : redact words text = .ok result) :
    ∀ pattern ∈ sensitivePatterns words, (pattern = bearer → Unpadded words text) →
      Screened words pattern result := by
  obtain ⟨first, second, third, fourth, hfirst, hsecond, hthird, hfourth, hresult⟩ :=
    redact_steps h
  intro pattern hpattern hcondition
  rw [sensitivePatterns] at hpattern
  simp only [List.mem_cons, List.not_mem_nil, or_false] at hpattern
  rcases hpattern with hp | hp | hp | hp | hp
  · rw [hp]
    exact bearer_left (hcondition hp) hfirst hsecond hthird hfourth hresult
  · rw [hp]
    exact jwt_left hsecond hthird hfourth hresult
  · rw [hp]
    exact connectionString_left hthird hfourth hresult
  · rw [hp]
    exact parameter_left hfourth hresult
  · rw [hp]
    exact dsn_left hresult

end Redacting

/-! ## A record -/

/-- What `redact` makes of a text. -/
def ScreenedText (words : WordClass) (text result : List CodePoint) : Prop :=
  ∀ pattern ∈ sensitivePatterns words, (pattern = bearer → Unpadded words text) →
    Screened words pattern result

/-- A string, screened, or another object as it was. -/
def ScreenedValue (words : WordClass) : LogValue → LogValue → Prop
  | .text content, .text result => ScreenedText words content result
  | .other rendering, .other same => same = rendering
  | _, _ => False

/-- Each argument in its place, and each key as it was. -/
def ScreenedArguments (words : WordClass) : LogArguments → LogArguments → Prop
  | .none, .none => True
  | .tuple values, .tuple results => List.Forall₂ (ScreenedValue words) values results
  | .dict entries, .dict results =>
      List.Forall₂ (fun entry result => result.1 = entry.1 ∧
        ScreenedValue words entry.2 result.2) entries results
  | .mapping [], .mapping [] => True
  | .mapping entries, .tuple results =>
      List.Forall₂ (fun entry result => ScreenedValue words entry.1 result) entries results
  | _, _ => False

section Record

variable {words : WordClass}

theorem redactValue_screens {value result : LogValue}
    (h : redactValue words value = .ok result) : ScreenedValue words value result := by
  cases value with
  | text content =>
      obtain ⟨screened, hredact, h⟩ := Exceptions.map_eq_ok.mp h
      rw [← h]
      exact redact_screens hredact
  | other rendering =>
      injection h with h
      rw [← h]
      exact rfl

theorem arguments_screened {args result : LogArguments}
    (h : RedactingFilter.arguments words args = .ok result) :
    ScreenedArguments words args result := by
  cases args with
  | none =>
      injection h with h
      rw [← h]
      trivial
  | tuple values =>
      obtain ⟨results, hresults, h⟩ := Exceptions.map_eq_ok.mp h
      rw [← h]
      exact (Exceptions.mapM_eq_ok hresults).imp fun _ _ => redactValue_screens
  | dict entries =>
      obtain ⟨results, hresults, h⟩ := Exceptions.map_eq_ok.mp h
      rw [← h]
      refine (Exceptions.mapM_eq_ok hresults).imp fun entry result hentry => ?_
      obtain ⟨value, hvalue, hentry⟩ := Exceptions.map_eq_ok.mp hentry
      rw [← hentry]
      exact ⟨rfl, redactValue_screens hvalue⟩
  | mapping entries =>
      cases entries with
      | nil =>
          injection h with h
          rw [← h]
          trivial
      | cons first entries =>
          obtain ⟨results, hresults, h⟩ := Exceptions.map_eq_ok.mp h
          rw [← h]
          exact (Exceptions.mapM_eq_ok hresults).imp fun _ _ => redactValue_screens

/-- **Each text of a record is screened, and nothing else of it is touched.** The template
and every argument that is text are screened on their own; the traceback is, once it is
formatted. -/
theorem record_screened {record filtered : LogRecord}
    (h : RedactingFilter.filter words record = .ok filtered) :
    ScreenedValue words record.msg filtered.msg ∧
      ScreenedArguments words record.args filtered.args ∧
      filtered = { record with msg := filtered.msg, args := filtered.args } ∧
      ∀ interpolate context payload exception,
        JsonFormatter.format words interpolate context filtered = .ok payload →
        payload.exception = some exception →
        ∃ traceback, record.traceback = some traceback ∧
          ScreenedText words traceback exception := by
  obtain ⟨msg, hmsg, h⟩ := Exceptions.bind_eq_ok.mp h
  obtain ⟨args, hargs, h⟩ := Exceptions.bind_eq_ok.mp h
  injection h with h
  rw [← h]
  refine ⟨redactValue_screens hmsg, arguments_screened hargs, rfl, ?_⟩
  intro interpolate context payload exception hformat hexception
  unfold JsonFormatter.format at hformat
  obtain ⟨message, _, hformat⟩ := Exceptions.bind_eq_ok.mp hformat
  obtain ⟨screened, hscreened, hformat⟩ := Exceptions.bind_eq_ok.mp hformat
  injection hformat with hpayload
  rw [← hpayload] at hexception
  dsimp only at hexception
  unfold JsonFormatter.exception at hscreened
  dsimp only at hscreened
  cases htraceback : record.traceback with
  | none =>
      rw [htraceback] at hscreened
      injection hscreened with hscreened
      rw [← hscreened] at hexception
      cases hexception
  | some traceback =>
      rw [htraceback] at hscreened
      dsimp only at hscreened
      obtain ⟨text, hredact, hsome⟩ :=
        Exceptions.map_eq_ok.mp (Exceptions.mapError_eq_ok.mp hscreened)
      rw [← hsome] at hexception
      injection hexception with hexception
      rw [← hexception]
      exact ⟨traceback, rfl, redact_screens hredact⟩

end Record

/-! ## A token that comes together -/

/-- Nothing the formatter emits holds a credential. -/
def NothingLeaks (words : WordClass)
    (interpolate : List CodePoint → LogArguments → Option (List CodePoint)) : Prop :=
  ∀ context record filtered payload, RedactingFilter.filter words record = .ok filtered →
    JsonFormatter.format words interpolate context filtered = .ok payload →
    ∀ string ∈ payload.strings, ∀ pattern ∈ sensitivePatterns words,
      Screened words pattern string

namespace SampleRecord

def isWord (c : CodePoint) : Bool :=
  asciiWord c || c.val == 0x130 || c.val == 0x131 || c.val == 0x17F || c.val == 0x212A

theorem isWord_spaced (c : CodePoint) (hspace : isSpace c = true) : isWord c = false := by
  rw [← Bool.not_eq_true]
  intro hword
  unfold isSpace at hspace
  simp only [isWord, asciiWord, Bool.or_eq_true, Bool.and_eq_true, decide_eq_true_eq,
    beq_iff_eq] at hspace hword
  omega

def words : WordClass where
  isWord := isWord
  ascii := by
    intro c h
    simp only [isWord]
    have h₁ : (c.val == 0x130) = false := beq_false_of_ne (by omega)
    have h₂ : (c.val == 0x131) = false := beq_false_of_ne (by omega)
    have h₃ : (c.val == 0x17F) = false := beq_false_of_ne (by omega)
    have h₄ : (c.val == 0x212A) = false := beq_false_of_ne (by omega)
    rw [h₁, h₂, h₃, h₄, Bool.or_false, Bool.or_false, Bool.or_false, Bool.or_false]
  folded := by
    intro c h
    simp only [isWord, Bool.or_eq_true, beq_iff_eq]
    omega
  spaced := isWord_spaced

/-- The `%` of a template that has only `%s` and `%%`, and a tuple. -/
def percent : List CodePoint → List LogValue → Option (List CodePoint)
  | [], [] => some []
  | [], _ :: _ => none
  | c :: rest, values =>
      if c = 0x25 then
        match rest, values with
        | d :: rest, values =>
            if d = 0x25 then (percent rest values).map fun text => 0x25 :: text
            else if d = 0x73 then
              match values with
              | value :: values => (percent rest values).map fun text => value.rendering ++ text
              | [] => none
            else none
        | [], _ => none
      else (percent rest values).map fun text => c :: text

def interpolate (template : List CodePoint) : LogArguments → Option (List CodePoint)
  | .tuple values => percent template values
  | _ => none

/-- `logger.info("Bearer %s", token)` -/
def record : LogRecord where
  levelname := ofString "INFO"
  name := ofString "ragcore"
  msg := .text (ofString "Bearer %s")
  args := .tuple [.text (ofString "abcdefgh")]
  traceback := none

def context : LogContext where
  timestamp := []
  correlationId := []
  tenantId := none
  traceId := []
  spanId := []

/-- The template and the token pass the filter apart, and come together after it. -/
theorem token_assembled : ¬ NothingLeaks words interpolate := by
  intro h
  have hfilter : RedactingFilter.filter words record = .ok record := by decide +kernel
  have hformat : JsonFormatter.format words interpolate context record = .ok
      { timestamp := [], level := ofString "INFO", logger := ofString "ragcore"
        message := ofString "Bearer abcdefgh", correlationId := [], tenantId := none
        traceId := none, spanId := none, exception := none } := by decide +kernel
  have hfind : bearer.find words.isWord none (ofString "Bearer abcdefgh") =
      some ⟨some (ofString "Bearer"), ofString " abcdefgh"⟩ := by decide +kernel
  have htail := h context record record _ hfilter hformat (ofString "Bearer abcdefgh")
    (by decide +kernel) bearer (List.mem_cons_self) [] _ _ rfl hfind
  exact absurd htail (by decide)

/-- What the filter makes of a record that holds a token whole. -/
theorem token_screened :
    ScreenedValue words (.text (ofString "Bearer abcdefgh"))
      (.text (ofString "Bearer <redacted>")) := by
  have hfilter : RedactingFilter.filter words
      { record with msg := .text (ofString "Bearer abcdefgh") } = .ok
      { record with msg := .text (ofString "Bearer <redacted>") } := by decide +kernel
  exact (record_screened hfilter).1

end SampleRecord

end Synthia.Observability
