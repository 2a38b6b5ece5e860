import Mathlib.Data.List.Basic

/-!
# Schemas of JSON data

Data, and schemas that say which of it is valid: a scalar of some type and out of some
enumeration, a list of items, an object with fields. A schema may refer to another by name,
and through a name to itself. An object carries no field its schema does not declare.
-/

namespace Schemas

/-- The scalars an enumeration lists. -/
inductive Literal (ν : Type) where
  | null
  | boolean (value : Bool)
  | integer (value : Int)
  | text (value : ν)
  deriving DecidableEq

inductive ScalarType where
  | string
  | integer
  | number
  | boolean
  | null
  deriving DecidableEq, Repr

inductive Schema (ν : Type) where
  | ref (name : ν)
  | object (properties : List (ν × Schema ν)) (required : List ν)
  | array (items : Schema ν)
  | value (type : Option ScalarType) (enum : Option (List (Literal ν)))

/-- The schema that says nothing. -/
def Schema.any {ν : Type} : Schema ν := .value none none

inductive Datum (ν : Type) where
  | literal (value : Literal ν)
  | decimal (digits : ν)
  | array (items : List (Datum ν))
  | object (members : List (ν × Datum ν))

/-- The schemas that have names. -/
abbrev Definitions (ν : Type) := ν → Option (Schema ν)

variable {ν : Type}

/-! ## What a schema is behind its names -/

/-- A name leads to what it names; one that is not defined says nothing. Names that lead in
a circle lead nowhere. -/
inductive Unfolds (definitions : Definitions ν) : Schema ν → Schema ν → Prop
  | object {properties required} :
      Unfolds definitions (.object properties required) (.object properties required)
  | array {items} : Unfolds definitions (.array items) (.array items)
  | value {type enum} : Unfolds definitions (.value type enum) (.value type enum)
  | known {name schema unfolded} : definitions name = some schema →
      Unfolds definitions schema unfolded → Unfolds definitions (.ref name) unfolded
  | unknown {name} : definitions name = none → Unfolds definitions (.ref name) .any

theorem Unfolds.unique {definitions : Definitions ν} {schema first second : Schema ν}
    (hfirst : Unfolds definitions schema first) (hsecond : Unfolds definitions schema second) :
    first = second := by
  induction hfirst with
  | object => cases hsecond; rfl
  | array => cases hsecond; rfl
  | value => cases hsecond; rfl
  | known hname _ ih =>
      cases hsecond with
      | known hother hunfolds =>
          rw [hname] at hother
          injection hother with hother
          exact ih (hother ▸ hunfolds)
      | unknown hother =>
          rw [hname] at hother
          cases hother
  | unknown hname =>
      cases hsecond with
      | known hother _ =>
          rw [hname] at hother
          cases hother
      | unknown => rfl

/-! ## Valid data -/

def Literal.hasType : Literal ν → ScalarType → Bool
  | .null, .null | .boolean _, .boolean | .integer _, .integer | .integer _, .number
  | .text _, .string => true
  | _, _ => false

/-- Of the type, where one is named, and among the values, where they are listed. -/
def ScalarValid (type : Option ScalarType) (enum : Option (List (Literal ν))) :
    Datum ν → Prop
  | .literal value =>
      (∀ named, type = some named → value.hasType named = true) ∧
        ∀ values, enum = some values → value ∈ values
  | .decimal _ => (∀ named, type = some named → named = .number) ∧ enum = none
  | .array _ | .object _ => type = none ∧ enum = none

variable [BEq ν]

inductive Valid (definitions : Definitions ν) : Schema ν → Datum ν → Prop
  | value {type enum datum} (h : ScalarValid type enum datum) :
      Valid definitions (.value type enum) datum
  | array {items data} (h : ∀ datum ∈ data, Valid definitions items datum) :
      Valid definitions (.array items) (.array data)
  | object {properties required members}
      (declared : ∀ member ∈ members, (properties.lookup member.1).isSome)
      (fields : ∀ member ∈ members, ∀ schema, properties.lookup member.1 = some schema →
        Valid definitions schema member.2)
      (present : ∀ name ∈ required, name ∈ members.map Prod.fst) :
      Valid definitions (.object properties required) (.object members)
  | known {name schema datum} (hname : definitions name = some schema)
      (h : Valid definitions schema datum) : Valid definitions (.ref name) datum
  | unknown {name datum} (hname : definitions name = none) : Valid definitions (.ref name) datum

/-- Some value is valid. -/
def Satisfiable (definitions : Definitions ν) (schema : Schema ν) : Prop :=
  ∃ datum, Valid definitions schema datum

theorem valid_any (definitions : Definitions ν) (datum : Datum ν) :
    Valid definitions .any datum := by
  refine .value ?_
  cases datum <;> simp [ScalarValid]

variable {definitions : Definitions ν} {schema unfolded : Schema ν} {datum : Datum ν}

theorem valid_object {properties : List (ν × Schema ν)} {required : List ν}
    {members : List (ν × Datum ν)}
    (htaken : ∀ member ∈ members, ∃ field, properties.lookup member.1 = some field ∧
      Valid definitions field member.2)
    (hpresent : ∀ name ∈ required, name ∈ members.map Prod.fst) :
    Valid definitions (.object properties required) (.object members) := by
  refine .object ?_ ?_ hpresent
  · intro member hmember
    obtain ⟨field, hfield, _⟩ := htaken member hmember
    rw [hfield]
    rfl
  · intro member hmember other hother
    obtain ⟨field, hfield, hvalid⟩ := htaken member hmember
    rw [hfield] at hother
    injection hother with hother
    exact hother ▸ hvalid

/-- What is valid is so behind the names. -/
theorem Valid.unfolds (h : Valid definitions schema datum) :
    ∃ unfolded, Unfolds definitions schema unfolded ∧ Valid definitions unfolded datum := by
  induction h with
  | value h => exact ⟨_, .value, .value h⟩
  | array h _ => exact ⟨_, .array, .array h⟩
  | object declared fields present _ => exact ⟨_, .object, .object declared fields present⟩
  | known hname _ ih =>
      obtain ⟨unfolded, hunfolds, hvalid⟩ := ih
      exact ⟨unfolded, .known hname hunfolds, hvalid⟩
  | unknown hname => exact ⟨_, .unknown hname, valid_any definitions _⟩

theorem Unfolds.valid (h : Unfolds definitions schema unfolded)
    (hvalid : Valid definitions unfolded datum) : Valid definitions schema datum := by
  induction h with
  | object => exact hvalid
  | array => exact hvalid
  | value => exact hvalid
  | known hname _ ih => exact .known hname (ih hvalid)
  | unknown hname => exact .unknown hname

theorem Unfolds.valid_iff (h : Unfolds definitions schema unfolded) :
    Valid definitions schema datum ↔ Valid definitions unfolded datum := by
  refine ⟨fun hvalid => ?_, h.valid⟩
  obtain ⟨other, hother, hvalid⟩ := hvalid.unfolds
  rwa [h.unique hother]

omit [BEq ν] in
/-- A schema behind its names is no name. -/
theorem Unfolds.ne_ref (h : Unfolds definitions schema unfolded) (name : ν) :
    unfolded ≠ .ref name := by
  induction h with
  | known _ _ ih => exact ih
  | _ => exact fun heq => nomatch heq

/-! ## Promises -/

/-- A step from a datum to a part of it. -/
inductive Step (ν : Type) where
  | field (name : ν)
  | item
  deriving DecidableEq

/-- What a client can tell of a datum by its schema. -/
inductive Kind where
  | object
  | array
  | value (type : Option ScalarType)
  deriving DecidableEq

/-- Of a schema that is no name; a name has no kind of its own. -/
def Schema.kind : Schema ν → Option Kind
  | .object _ _ => some .object
  | .array _ => some .array
  | .value type _ => some (.value type)
  | .ref _ => none

/-- The schema declares a field of that kind, at the end of those steps. -/
inductive Promises (definitions : Definitions ν) : Schema ν → List (Step ν) → Kind → Prop
  | field {schema properties required name field unfolded kind}
      (hschema : Unfolds definitions schema (.object properties required))
      (hfield : properties.lookup name = some field) (hunfolds : Unfolds definitions field unfolded)
      (hkind : unfolded.kind = some kind) : Promises definitions schema [.field name] kind
  | within {schema properties required name field path kind}
      (hschema : Unfolds definitions schema (.object properties required))
      (hfield : properties.lookup name = some field) (h : Promises definitions field path kind) :
      Promises definitions schema (.field name :: path) kind
  | items {schema items path kind} (hschema : Unfolds definitions schema (.array items))
      (h : Promises definitions items path kind) :
      Promises definitions schema (.item :: path) kind

end Schemas

/-!
## Schemas that take the place of others

A schema accepts all that another accepts, or promises all that another promises. Both are
statements about data, or about paths, of which there is no end. Each has a form that looks
at two schemas only as far as their first level: a relation between schemas that holds of
the parts of two schemas it holds of.

A relation of that form is sound, by induction on what is valid or promised; and the
statement about all data is itself such a relation, so nothing is lost.
-/

namespace Schemas

variable {ν : Type} [BEq ν] {old new : Definitions ν}

/-! ### Accepting -/

/-- What two schemas without a name are to each other, with what their parts are. Fields that
can have no value do not matter. -/
def Fits (old : Definitions ν) (Related : Schema ν → Schema ν → Prop) :
    Schema ν → Schema ν → Prop
  | _, .value none none => True
  | .value type enum, .value type' enum' =>
      ∀ datum, ScalarValid type enum datum → ScalarValid type' enum' datum
  | .array items, .array items' => Related items items'
  | .object properties required, .object properties' required' =>
      (∀ name ∈ required', name ∈ required) ∧
        ∀ name field, properties.lookup name = some field → Satisfiable old field →
          ∃ field', properties'.lookup name = some field' ∧ Related field field'
  | _, _ => False

/-- A relation whose schemas fit one another, all the way down. -/
def Accommodating (old new : Definitions ν) (Related : Schema ν → Schema ν → Prop) : Prop :=
  ∀ schema schema', Related schema schema' → Satisfiable old schema →
    ∀ unfolded, Unfolds old schema unfolded →
      ∃ unfolded', Unfolds new schema' unfolded' ∧ Fits old Related unfolded unfolded'

def Accommodates (old new : Definitions ν) (schema schema' : Schema ν) : Prop :=
  ∃ Related, Accommodating old new Related ∧ Related schema schema'

/-- What fits takes the data, its parts taking theirs. -/
theorem Accommodating.valid {Related : Schema ν → Schema ν → Prop}
    (hrelated : Accommodating old new Related) {schema : Schema ν} {datum : Datum ν}
    (hvalid : Valid old schema datum) :
    ∀ {first schema' : Schema ν}, Related first schema' → Valid old first datum →
      (∀ unfolded, Unfolds old schema unfolded → Unfolds old first unfolded) →
        Valid new schema' datum := by
  induction hvalid with
  | @value type enum datum h =>
      intro first schema' hrelation hfirst hbehind
      obtain ⟨unfolded', hunfolds, hfits⟩ :=
        hrelated first schema' hrelation ⟨_, hfirst⟩ _ (hbehind _ .value)
      refine hunfolds.valid ?_
      match unfolded', hfits with
      | .value none none, _ => exact valid_any new datum
      | .value (some _) _, hfits => exact .value (hfits datum h)
      | .value none (some _), hfits => exact .value (hfits datum h)
  | @array items data _ ih =>
      intro first schema' hrelation hfirst hbehind
      obtain ⟨unfolded', hunfolds, hfits⟩ :=
        hrelated first schema' hrelation ⟨_, hfirst⟩ _ (hbehind _ .array)
      refine hunfolds.valid ?_
      match unfolded', hfits with
      | .value none none, _ => exact valid_any new _
      | .array items', hfits =>
          refine .array fun datum hdatum => ?_
          have hitem : Valid old items datum := by
            cases (hbehind _ .array).valid_iff.mp hfirst with
            | array h => exact h datum hdatum
          exact ih datum hdatum hfits hitem fun _ h => h
  | @object properties required members declared fields present ih =>
      intro first schema' hrelation hfirst hbehind
      obtain ⟨unfolded', hunfolds, hfits⟩ :=
        hrelated first schema' hrelation ⟨_, hfirst⟩ _ (hbehind _ .object)
      refine hunfolds.valid ?_
      match unfolded', hfits with
      | .value none none, _ => exact valid_any new _
      | .object properties' required', hfits =>
          obtain ⟨hrequired, hfields⟩ := hfits
          have htaken : ∀ member ∈ members, ∃ field', properties'.lookup member.1 = some field' ∧
              Valid new field' member.2 := by
            intro member hmember
            obtain ⟨field, hfield⟩ := Option.isSome_iff_exists.mp (declared member hmember)
            have hvalid := fields member hmember field hfield
            obtain ⟨field', hfield', hparts⟩ := hfields _ field hfield ⟨_, hvalid⟩
            exact ⟨field', hfield', ih member hmember field hfield hparts hvalid fun _ h => h⟩
          exact valid_object htaken fun name hname => present name (hrequired name hname)
  | known hname _ ih =>
      intro first schema' hrelation hfirst hbehind
      exact ih hrelation hfirst fun unfolded hunfolds => hbehind _ (.known hname hunfolds)
  | @unknown name datum hname =>
      intro first schema' hrelation hfirst hbehind
      obtain ⟨unfolded', hunfolds, hfits⟩ :=
        hrelated first schema' hrelation ⟨_, hfirst⟩ _ (hbehind _ (.unknown hname))
      refine hunfolds.valid ?_
      match unfolded', hfits with
      | .value none none, _ => exact valid_any new datum
      | .value (some _) _, hfits =>
          refine .value (hfits datum ?_)
          cases valid_any old datum with
          | value h => exact h
      | .value none (some _), hfits =>
          refine .value (hfits datum ?_)
          cases valid_any old datum with
          | value h => exact h

/-! What fits, where all that the one accepts the other accepts. -/

section Included

variable {Related : Schema ν → Schema ν → Prop}

theorem fits_value {type : Option ScalarType} {enum : Option (List (Literal ν))}
    {unfolded' : Schema ν} (hsome : Satisfiable old (.value type enum))
    (hname : ∀ name, unfolded' ≠ .ref name)
    (h : ∀ datum, Valid old (.value type enum) datum → Valid new unfolded' datum) :
    Fits old Related (.value type enum) unfolded' := by
  obtain ⟨datum, hdatum⟩ := hsome
  -- What accepts a list or an object here accepts everything.
  have hscalar : ∃ value : Datum ν, Valid old (.value type enum) value ∧
      (∀ items, value ≠ .array items) ∧ ∀ members, value ≠ .object members := by
    cases hdatum with
    | value hvalid =>
        cases datum with
        | literal value =>
            exact ⟨_, .value hvalid, by simp, by simp⟩
        | decimal digits =>
            exact ⟨_, .value hvalid, by simp, by simp⟩
        | array items =>
            obtain ⟨rfl, rfl⟩ := hvalid
            exact ⟨.literal .null, valid_any old _, by simp, by simp⟩
        | object members =>
            obtain ⟨rfl, rfl⟩ := hvalid
            exact ⟨.literal .null, valid_any old _, by simp, by simp⟩
  obtain ⟨value, hvalue, harray, hobject⟩ := hscalar
  have hscalars : ∀ type' enum', unfolded' = .value type' enum' →
      ∀ datum, ScalarValid type enum datum → ScalarValid type' enum' datum := by
    rintro type' enum' rfl datum hvalid
    cases h datum (.value hvalid) with
    | value h => exact h
  match unfolded' with
  | .ref name => exact absurd rfl (hname name)
  | .value none none => exact trivial
  | .value (some _) _ => exact hscalars _ _ rfl
  | .value none (some _) => exact hscalars _ _ rfl
  | .array _ =>
      cases h value hvalue with
      | array => exact absurd rfl (harray _)
  | .object _ _ =>
      cases h value hvalue with
      | object => exact absurd rfl (hobject _)

theorem fits_array {items unfolded' : Schema ν} (hname : ∀ name, unfolded' ≠ .ref name)
    (h : ∀ datum, Valid old (.array items) datum → Valid new unfolded' datum)
    (hparts : ∀ items', (∀ datum, Valid old items datum → Valid new items' datum) →
      Related items items') : Fits old Related (.array items) unfolded' := by
  have hempty : Valid new unfolded' (.array []) :=
    h _ (.array fun _ hdatum => absurd hdatum List.not_mem_nil)
  match unfolded' with
  | .ref name => exact absurd rfl (hname name)
  | .value none none => exact trivial
  | .value (some _) _ =>
      cases hempty with
      | value hvalid => cases hvalid.1
  | .value none (some _) =>
      cases hempty with
      | value hvalid => cases hvalid.2
  | .object _ _ => cases hempty
  | .array items' =>
      refine hparts items' fun datum hdatum => ?_
      have hsingle := h (.array [datum]) (.array fun other hother => by
        rw [List.mem_singleton.mp hother]
        exact hdatum)
      cases hsingle with
      | array hall => exact hall datum List.mem_cons_self

/-- One more field does not make an object invalid. -/
theorem valid_concat {properties : List (ν × Schema ν)} {required : List ν}
    {members : List (ν × Datum ν)} {name : ν} {field : Schema ν} {datum : Datum ν}
    (hmembers : Valid old (.object properties required) (.object members))
    (hfield : properties.lookup name = some field) (hdatum : Valid old field datum) :
    Valid old (.object properties required) (.object (members ++ [(name, datum)])) := by
  cases hmembers with
  | object declared fields present =>
      refine .object ?_ ?_ ?_
      · intro member hmember
        rcases List.mem_append.mp hmember with hbefore | hlast
        · exact declared member hbefore
        · rw [List.mem_singleton.mp hlast, hfield]
          rfl
      · intro member hmember schema hschema
        rcases List.mem_append.mp hmember with hbefore | hlast
        · exact fields member hbefore schema hschema
        · rw [List.mem_singleton.mp hlast, hfield] at hschema
          injection hschema with hschema
          rw [List.mem_singleton.mp hlast]
          exact hschema ▸ hdatum
      · intro other hother
        rw [List.map_append]
        exact List.mem_append_left _ (present other hother)

variable [LawfulBEq ν]

/-- Nor does one less that is not required. -/
theorem valid_filter {properties : List (ν × Schema ν)} {required : List ν}
    {members : List (ν × Datum ν)}
    (hmembers : Valid old (.object properties required) (.object members)) :
    Valid old (.object properties required)
      (.object (members.filter fun member => required.contains member.1)) := by
  cases hmembers with
  | object declared fields present =>
      refine .object (fun member hmember => declared member (List.mem_filter.mp hmember).1)
        (fun member hmember => fields member (List.mem_filter.mp hmember).1) ?_
      intro name hname
      obtain ⟨member, hmember, rfl⟩ := List.mem_map.mp (present name hname)
      exact List.mem_map_of_mem (List.mem_filter.mpr ⟨hmember, by simpa using hname⟩)

theorem fits_object {properties : List (ν × Schema ν)} {required : List ν} {unfolded' : Schema ν}
    (hsome : Satisfiable old (.object properties required))
    (hname : ∀ name, unfolded' ≠ .ref name)
    (h : ∀ datum, Valid old (.object properties required) datum → Valid new unfolded' datum)
    (hparts : ∀ field field', (∀ datum, Valid old field datum → Valid new field' datum) →
      Related field field') : Fits old Related (.object properties required) unfolded' := by
  obtain ⟨datum, hdatum⟩ := hsome
  cases datum with
  | literal => cases hdatum
  | decimal => cases hdatum
  | array => cases hdatum
  | object members =>
      have htaken := h _ hdatum
      match unfolded' with
      | .ref name => exact absurd rfl (hname name)
      | .value none none => exact trivial
      | .value (some _) _ =>
          cases htaken with
          | value hvalid => cases hvalid.1
      | .value none (some _) =>
          cases htaken with
          | value hvalid => cases hvalid.2
      | .array _ => cases htaken
      | .object properties' required' =>
          constructor
          · intro name hname
            cases h _ (valid_filter hdatum) with
            | object _ _ present =>
                obtain ⟨member, hmember, rfl⟩ := List.mem_map.mp (present name hname)
                simpa using (List.mem_filter.mp hmember).2
          · intro name field hfield hsome
            have hlast : ∀ value, Valid old field value →
                ∃ field', properties'.lookup name = some field' ∧ Valid new field' value := by
              intro value hvalue
              have hmember : (name, value) ∈ members ++ [(name, value)] :=
                List.mem_append_right _ (List.mem_singleton.mpr rfl)
              cases h _ (valid_concat hdatum hfield hvalue) with
              | object declared fields _ =>
                  obtain ⟨field', hfield'⟩ :=
                    Option.isSome_iff_exists.mp (declared _ hmember)
                  exact ⟨field', hfield', fields _ hmember field' hfield'⟩
            obtain ⟨value, hvalue⟩ := hsome
            obtain ⟨field', hfield', _⟩ := hlast value hvalue
            refine ⟨field', hfield', hparts field field' fun datum hdatum => ?_⟩
            obtain ⟨other, hother, hvalid⟩ := hlast datum hdatum
            rw [hfield'] at hother
            injection hother with hother
            exact hother ▸ hvalid

end Included

/-- The inclusion of what is valid is a relation all the way down. -/
theorem accommodating_included [LawfulBEq ν] : Accommodating old new fun schema schema' =>
    ∀ datum, Valid old schema datum → Valid new schema' datum := by
  intro schema schema' hincluded hsome unfolded hunfolds
  obtain ⟨datum, hdatum⟩ := hsome
  obtain ⟨unfolded', hunfolds', _⟩ := (hincluded datum hdatum).unfolds
  have hbehind : ∀ datum, Valid old unfolded datum → Valid new unfolded' datum :=
    fun datum hvalid => hunfolds'.valid_iff.mp (hincluded datum (hunfolds.valid hvalid))
  have hsome : Satisfiable old unfolded := ⟨datum, hunfolds.valid_iff.mp hdatum⟩
  refine ⟨unfolded', hunfolds', ?_⟩
  match unfolded with
  | .ref name => exact absurd rfl (hunfolds.ne_ref name)
  | .value _ _ => exact fits_value hsome hunfolds'.ne_ref hbehind
  | .array _ => exact fits_array hunfolds'.ne_ref hbehind fun _ h => h
  | .object _ _ => exact fits_object hsome hunfolds'.ne_ref hbehind fun _ _ h => h

/-- **What accommodates.** A schema accommodates another exactly if it accepts all that the
other accepts. -/
theorem accommodates_iff [LawfulBEq ν] {schema schema' : Schema ν} :
    Accommodates old new schema schema' ↔
      ∀ datum, Valid old schema datum → Valid new schema' datum := by
  constructor
  · intro h datum hdatum
    obtain ⟨Related, hrelated, hrelation⟩ := h
    exact hrelated.valid hdatum hrelation hdatum fun _ h => h
  · intro h
    exact ⟨_, accommodating_included, h⟩

/-! ### Promising -/

section Promising

variable {schema schema' : Schema ν}

/-- Behind its names a field is of the kind it was of. -/
def SameKind (old new : Definitions ν) (field field' : Schema ν) : Prop :=
  ∀ part kind, Unfolds old field part → part.kind = some kind →
    ∃ part', Unfolds new field' part' ∧ part'.kind = some kind

/-- A relation whose schemas promise the same, all the way down. Lists of what promises
nothing do not matter. -/
def Keeping (old new : Definitions ν) (Related : Schema ν → Schema ν → Prop) : Prop :=
  ∀ schema schema', Related schema schema' →
    (∀ properties required, Unfolds old schema (.object properties required) →
      ∀ name field, properties.lookup name = some field → (∃ part, Unfolds old field part) →
        ∃ properties' required' field', Unfolds new schema' (.object properties' required') ∧
          properties'.lookup name = some field' ∧ SameKind old new field field' ∧
            Related field field') ∧
      ∀ items, Unfolds old schema (.array items) →
        (∃ path kind, Promises old items path kind) →
          ∃ items', Unfolds new schema' (.array items') ∧ Related items items'

def Keeps (old new : Definitions ν) (schema schema' : Schema ν) : Prop :=
  ∃ Related, Keeping old new Related ∧ Related schema schema'

theorem Promises.unfolds {path : List (Step ν)} {kind : Kind}
    (h : Promises old schema path kind) : ∃ unfolded, Unfolds old schema unfolded := by
  cases h with
  | field hschema => exact ⟨_, hschema⟩
  | within hschema => exact ⟨_, hschema⟩
  | items hschema => exact ⟨_, hschema⟩

theorem Promises.path_ne_nil {path : List (Step ν)} {kind : Kind}
    (h : Promises old schema path kind) : path ≠ [] := by
  cases h <;> exact List.cons_ne_nil _ _

theorem Keeping.promises {Related : Schema ν → Schema ν → Prop}
    (hrelated : Keeping old new Related) {path : List (Step ν)} {kind : Kind}
    (h : Promises old schema path kind) :
    ∀ {schema' : Schema ν}, Related schema schema' → Promises new schema' path kind := by
  induction h with
  | field hschema hfield hunfolds hkind =>
      intro schema' hrelation
      obtain ⟨_, _, field', hschema', hfield', hsame, _⟩ :=
        (hrelated _ schema' hrelation).1 _ _ hschema _ _ hfield ⟨_, hunfolds⟩
      obtain ⟨part', hpart', hkind'⟩ := hsame _ _ hunfolds hkind
      exact .field hschema' hfield' hpart' hkind'
  | within hschema hfield hpromises ih =>
      intro schema' hrelation
      obtain ⟨_, _, field', hschema', hfield', _, hparts⟩ :=
        (hrelated _ schema' hrelation).1 _ _ hschema _ _ hfield hpromises.unfolds
      exact .within hschema' hfield' (ih hparts)
  | items hschema hpromises ih =>
      intro schema' hrelation
      obtain ⟨items', hschema', hparts⟩ :=
        (hrelated _ schema' hrelation).2 _ hschema ⟨_, _, hpromises⟩
      exact .items hschema' (ih hparts)

omit [BEq ν] in
theorem Unfolds.kind_isSome {unfolded : Schema ν} (h : Unfolds old schema unfolded) :
    ∃ kind, unfolded.kind = some kind := by
  match unfolded with
  | .ref name => exact absurd rfl (h.ne_ref name)
  | .object _ _ => exact ⟨_, rfl⟩
  | .array _ => exact ⟨_, rfl⟩
  | .value _ _ => exact ⟨_, rfl⟩

/-- What is promised behind a field is promised behind the field of that name. -/
theorem promises_field {properties : List (ν × Schema ν)} {required : List ν} {name : ν}
    {field : Schema ν} {path : List (Step ν)} {kind : Kind} (hpath : path ≠ [])
    (h : Promises new schema' (.field name :: path) kind)
    (hschema : Unfolds new schema' (.object properties required))
    (hfield : properties.lookup name = some field) : Promises new field path kind := by
  cases h with
  | field => exact absurd rfl hpath
  | within hother hfield' hpromises =>
      have hsame := hother.unique hschema
      injection hsame with hsame _
      rw [hsame, hfield] at hfield'
      injection hfield' with hfield'
      exact hfield' ▸ hpromises

/-- The inclusion of what is promised is a relation all the way down. -/
theorem keeping_included : Keeping old new fun schema schema' =>
    ∀ path kind, Promises old schema path kind → Promises new schema' path kind := by
  intro schema schema' hincluded
  constructor
  · intro properties required hschema name field hfield hsome
    obtain ⟨part, hpart⟩ := hsome
    obtain ⟨kind, hkind⟩ := hpart.kind_isSome
    cases hincluded _ _ (.field hschema hfield hpart hkind) with
    | within _ _ hpromises => exact absurd rfl hpromises.path_ne_nil
    | @field _ properties' required' _ field' part' _ hschema' hfield' hpart' hkind' =>
        refine ⟨properties', required', field', hschema', hfield', ?_, ?_⟩
        · intro other kind' hother hkind''
          rw [hother.unique hpart, hkind] at hkind''
          injection hkind'' with hkind''
          exact ⟨part', hpart', hkind'' ▸ hkind'⟩
        · intro path kind hpromises
          exact promises_field hpromises.path_ne_nil
            (hincluded _ _ (.within hschema hfield hpromises)) hschema' hfield'
  · intro items hschema hsome
    obtain ⟨path, kind, hpromises⟩ := hsome
    cases hincluded _ _ (.items hschema hpromises) with
    | @items _ items' _ _ hschema' _ =>
        refine ⟨items', hschema', fun path kind hpromises => ?_⟩
        cases hincluded _ _ (.items hschema hpromises) with
        | items hother hpromises =>
            have hsame := hother.unique hschema'
            injection hsame with hsame
            exact hsame ▸ hpromises

/-- **What keeps.** A schema keeps another's promises exactly if it promises all that the
other promises. -/
theorem keeps_iff : Keeps old new schema schema' ↔
    ∀ path kind, Promises old schema path kind → Promises new schema' path kind := by
  constructor
  · intro h path kind hpromises
    obtain ⟨Related, hrelated, hrelation⟩ := h
    exact hrelated.promises hpromises hrelation
  · intro h
    exact ⟨_, keeping_included, h⟩

end Promising

end Schemas
