import Synthia.Lib.Exceptions
import Synthia.ReadModels.Filters

/-!
# When a filter means what was published

Two things are asked of a query. A filter over an enumeration takes exactly the published
names, and takes them for the members of those names; and once the query has bound, every
value in it is what was bound.

The first is a matter of `Enum.TryParse`. It reads a member's name as the member, but it
reads numbers and lists of names too, and the binder takes those for what they come to;
and the one name that is published and not taken is the sentinel's.

The second is a matter of reading first values only. What a handler has in hand is, for
each of its parameters, what the first value is read as, or the default where there is
none; so a value is bound where it is read as the first one is. A route that is not paged
binds no sort, no limit and no cursor, and lets all three through.
-/

namespace Synthia

open Text Relational

/-! ## Names -/

theorem equalsIgnoreCase_iff {left right : List CodePoint} :
    equalsIgnoreCase left right = true ↔ left.map asciiLower = right.map asciiLower :=
  beq_iff_eq

/-- Every name of a query is one of its keys, up to case. -/
theorem QueryString.exists_key {query : QueryString} {pair : List CodePoint × List CodePoint}
    (h : pair ∈ query) :
    ∃ key ∈ QueryString.keys query, equalsIgnoreCase pair.1 key = true := by
  induction query with
  | nil => cases h
  | cons head query ih =>
      obtain ⟨name, value⟩ := head
      rw [QueryString.keys]
      rcases List.mem_cons.mp h with rfl | h
      · exact ⟨name, List.mem_cons_self, equalsIgnoreCase_iff.mpr rfl⟩
      · obtain ⟨key, hkey, hname⟩ := ih h
        cases hsame : equalsIgnoreCase name key with
        | true =>
            refine ⟨name, List.mem_cons_self, equalsIgnoreCase_iff.mpr ?_⟩
            rw [equalsIgnoreCase_iff.mp hname, equalsIgnoreCase_iff.mp hsame]
        | false =>
            refine ⟨key, List.mem_cons_of_mem name (List.mem_filter.mpr ⟨hkey, ?_⟩), hname⟩
            rw [hsame]
            rfl

/-! ## What `Enum.TryParse` reads -/

namespace EnumText

/-- The number that names between commas come to. -/
def combined (numbers : List Int) : Int :=
  ((numbers.foldl (fun result number => result ||| number.toNat) 0 : Nat) : Int)

/-- A text is read as a number of thirty-two bits, or else as names between commas. -/
inductive Reads (members : List (Int × String)) (value : List CodePoint) : Int → Prop where
  | number {n : Int} (hstarts : startsNumber (value.dropWhile Guid.isWhiteSpace) = true)
      (hread : readNumber (value.dropWhile Guid.isWhiteSpace) = some n)
      (hlow : -2 ^ 31 ≤ n) (hhigh : n < 2 ^ 31) : Reads members value n
  | names {numbers : List Int} (hsome : value.dropWhile Guid.isWhiteSpace ≠ [])
      (hplain : startsNumber (value.dropWhile Guid.isWhiteSpace) = false ∨
        readNumber (value.dropWhile Guid.isWhiteSpace) = none)
      (hnames : ((value.dropWhile Guid.isWhiteSpace).splitOn 0x2C).mapM
        (memberNamed members) = some numbers) : Reads members value (combined numbers)

theorem tryParseByName_eq_some {members : List (Int × String)} {text : List CodePoint}
    {n : Int} : tryParseByName members text = some n ↔
      ∃ numbers, (text.splitOn 0x2C).mapM (memberNamed members) = some numbers ∧
        combined numbers = n :=
  Option.map_eq_some_iff

theorem tryParse_eq_some {members : List (Int × String)} {value : List CodePoint} {n : Int} :
    tryParse members value = some n ↔ Reads members value n := by
  unfold tryParse
  dsimp only
  constructor
  · intro h
    split at h
    · cases h
    · next hempty =>
        have hsome : value.dropWhile Guid.isWhiteSpace ≠ [] :=
          fun hnil => hempty (List.isEmpty_iff.mpr hnil)
        split at h
        · next hstarts =>
            split at h
            · next number hread =>
                split at h
                · next hrange =>
                    injection h with h
                    rw [← h]
                    exact .number hstarts hread hrange.1 hrange.2
                · cases h
            · next hread =>
                obtain ⟨numbers, hnames, hn⟩ := tryParseByName_eq_some.mp h
                rw [← hn]
                exact .names hsome (Or.inr hread) hnames
        · next hstarts =>
            obtain ⟨numbers, hnames, hn⟩ := tryParseByName_eq_some.mp h
            rw [← hn]
            exact .names hsome (Or.inl (Bool.eq_false_of_not_eq_true hstarts)) hnames
  · intro h
    cases h with
    | number hstarts hread hlow hhigh =>
        have hsome : (value.dropWhile Guid.isWhiteSpace).isEmpty = false := by
          cases htext : value.dropWhile Guid.isWhiteSpace with
          | nil =>
              rw [htext] at hstarts
              cases hstarts
          | cons c text => rfl
        simp only [hsome, Bool.false_eq_true, if_false, hstarts, if_true, hread]
        rw [if_pos ⟨hlow, hhigh⟩]
    | @names numbers hsome hplain hnames =>
        have hempty : (value.dropWhile Guid.isWhiteSpace).isEmpty = false :=
          List.isEmpty_eq_false_iff.mpr hsome
        have hbyName : tryParseByName members (value.dropWhile Guid.isWhiteSpace) =
            some (combined numbers) := tryParseByName_eq_some.mpr ⟨numbers, hnames, rfl⟩
        simp only [hempty, Bool.false_eq_true, if_false]
        split
        · next hstarts =>
            rcases hplain with hother | hnone
            · rw [hstarts] at hother
              cases hother
            · rw [hnone]
              exact hbyName
        · exact hbyName

/-! ### The names of an enumeration -/

def isLetter (c : CodePoint) : Bool :=
  (0x41 ≤ c.val && c.val ≤ 0x5A) || (0x61 ≤ c.val && c.val ≤ 0x7A)

/-- The members of an enumeration of this platform: names of letters, no two of them the
same but for case, and numbers of their own, none of them negative. -/
structure Vocabulary (members : List (Int × String)) : Prop where
  letters : ∀ member ∈ members, ofString member.2 ≠ [] ∧
    (ofString member.2).all isLetter = true
  natural : ∀ member ∈ members, 0 ≤ member.1
  names : members.Pairwise fun first second =>
    equalsIgnoreCase (ofString first.2) (ofString second.2) = false
  numbers : members.Pairwise fun first second => first.1 ≠ second.1

theorem val_asciiLower (c : CodePoint) : (asciiLower c).val =
    if 0x41 ≤ c.val ∧ c.val ≤ 0x5A then c.val + 0x20 else c.val := by
  unfold asciiLower
  by_cases h : 0x41 ≤ c.val ∧ c.val ≤ 0x5A
  · rw [if_pos (by simpa using h), if_pos h]
    exact Nat.mod_eq_of_lt (by omega)
  · rw [if_neg (by simpa using h), if_neg h]

theorem isLetter_of_asciiLower {c d : CodePoint} (h : asciiLower c = asciiLower d)
    (hd : isLetter d = true) : isLetter c = true := by
  have hval := congrArg Fin.val h
  rw [val_asciiLower, val_asciiLower] at hval
  simp only [isLetter, Bool.or_eq_true, Bool.and_eq_true, decide_eq_true_eq] at hd ⊢
  split at hval <;> split at hval <;> omega

/-- What a letter is not. -/
theorem isLetter_plain {c : CodePoint} (h : isLetter c = true) :
    Guid.isWhiteSpace c = false ∧ (c == 0x2C) = false ∧ startsNumber [c] = false := by
  have hne : ∀ d : CodePoint, isLetter d = false → (c == d) = false := by
    intro d hd
    rw [beq_eq_false_iff_ne]
    intro hcd
    rw [hcd, hd] at h
    cases h
  refine ⟨?_, hne 0x2C (by decide), ?_⟩
  · simp only [isLetter, Bool.or_eq_true, Bool.and_eq_true, decide_eq_true_eq] at h
    simp only [Guid.isWhiteSpace, Bool.or_eq_false_iff, Bool.and_eq_false_iff,
      decide_eq_false_iff_not, beq_eq_false_iff_ne]
    omega
  · rw [startsNumber, hne 0x2D (by decide), hne 0x2B (by decide), Bool.or_false, Bool.or_false]
    simp only [isLetter, Bool.or_eq_true, Bool.and_eq_true, decide_eq_true_eq] at h
    simp only [Bool.and_eq_false_iff, decide_eq_false_iff_not]
    omega

variable {members : List (Int × String)}

/-- A text that names a member is one of letters. -/
theorem Vocabulary.spelt (hmembers : Vocabulary members) {member : Int × String}
    (hmember : member ∈ members) {value : List CodePoint}
    (hvalue : equalsIgnoreCase value (ofString member.2) = true) :
    value ≠ [] ∧ ∀ c ∈ value, isLetter c = true := by
  obtain ⟨hsome, hletters⟩ := hmembers.letters member hmember
  have hmap := equalsIgnoreCase_iff.mp hvalue
  constructor
  · intro hnil
    rw [hnil, List.map_nil] at hmap
    exact hsome (List.map_eq_nil_iff.mp hmap.symm)
  · intro c hc
    have hlower := List.mem_map_of_mem (f := asciiLower) hc
    rw [hmap] at hlower
    obtain ⟨d, hd, hcd⟩ := List.mem_map.mp hlower
    exact isLetter_of_asciiLower hcd.symm (List.all_eq_true.mp hletters d hd)

/-- Names are told apart by what is equal to them but for case. -/
theorem Vocabulary.name_unique (hmembers : Vocabulary members) {first second : Int × String}
    (hfirst : first ∈ members) (hsecond : second ∈ members) {value : List CodePoint}
    (hvalue : equalsIgnoreCase value (ofString first.2) = true)
    (hother : equalsIgnoreCase value (ofString second.2) = true) : first = second := by
  by_contra hne
  have : Std.Symm fun first second : Int × String =>
      equalsIgnoreCase (ofString first.2) (ofString second.2) = false := by
    refine ⟨fun left right h => ?_⟩
    rw [← Bool.not_eq_true, equalsIgnoreCase_iff] at h ⊢
    exact fun hsame => h hsame.symm
  have hapart := hmembers.names.forall hfirst hsecond hne
  rw [equalsIgnoreCase_iff.mpr ((equalsIgnoreCase_iff.mp hvalue).symm.trans
    (equalsIgnoreCase_iff.mp hother))] at hapart
  cases hapart

/-- The member a text names is the one that is found. -/
theorem Vocabulary.memberNamed (hmembers : Vocabulary members) {member : Int × String}
    (hmember : member ∈ members) {value : List CodePoint}
    (hvalue : equalsIgnoreCase value (ofString member.2) = true) :
    memberNamed members value = some member.1 := by
  obtain ⟨_, hletters⟩ := hmembers.spelt hmember hvalue
  have hstrip : stripWhere Guid.isWhiteSpace value = value :=
    stripWhere_self fun c hc => (isLetter_plain (hletters c hc)).1
  have hsome : (members.find? fun member =>
      equalsIgnoreCase value (ofString member.2)).isSome = true :=
    List.find?_isSome.mpr ⟨member, hmember, hvalue⟩
  obtain ⟨found, hfound⟩ := Option.isSome_iff_exists.mp hsome
  have hmatch : equalsIgnoreCase value (ofString found.2) = true := List.find?_some
    (p := fun member : Int × String => equalsIgnoreCase value (ofString member.2)) hfound
  have hsame := hmembers.name_unique (List.mem_of_find?_eq_some hfound) hmember hmatch hvalue
  rw [EnumText.memberNamed, hstrip, hfound, hsame]
  rfl

/-- **A member's name is read as the member.** -/
theorem Vocabulary.tryParse_name (hmembers : Vocabulary members) {member : Int × String}
    (hmember : member ∈ members) {value : List CodePoint}
    (hvalue : equalsIgnoreCase value (ofString member.2) = true) :
    tryParse members value = some member.1 := by
  obtain ⟨hsome, hletters⟩ := hmembers.spelt hmember hvalue
  obtain ⟨c, text, rfl⟩ := List.exists_cons_of_ne_nil hsome
  obtain ⟨hspace, _, hdigit⟩ := isLetter_plain (hletters c List.mem_cons_self)
  have htext : (c :: text).dropWhile Guid.isWhiteSpace = c :: text :=
    List.dropWhile_cons_of_neg (by rw [hspace]; exact Bool.false_ne_true)
  have hcomma : (0x2C : CodePoint) ∉ c :: text := by
    intro hmem
    have hplain := (isLetter_plain (hletters _ hmem)).2.1
    rw [beq_self_eq_true] at hplain
    cases hplain
  have hnames : ((c :: text).splitOn 0x2C).mapM (EnumText.memberNamed members) =
      some [member.1] := by
    rw [List.splitOn_eq_singleton hcomma, List.mapM_cons, hmembers.memberNamed hmember hvalue]
    rfl
  have hnumber : combined [member.1] = member.1 := by
    rw [combined, List.foldl_cons, List.foldl_nil, Nat.zero_or]
    exact Int.toNat_of_nonneg (hmembers.natural member hmember)
  rw [tryParse_eq_some]
  rw [← htext] at hnames
  have hreads := Reads.names (by rw [htext]; exact hsome)
    (Or.inl (by rw [htext]; exact hdigit)) hnames
  rw [hnumber] at hreads
  exact hreads

/-- The sentinel's number is its own. -/
theorem Vocabulary.isUnknown_iff (hmembers : Vocabulary members) {member : Int × String}
    (hmember : member ∈ members) :
    QueryBinding.isUnknown members member.1 = true ↔ member.2 = "Unknown" := by
  have hsome : (members.find? fun other => other.1 == member.1).isSome = true :=
    List.find?_isSome.mpr ⟨member, hmember, beq_self_eq_true _⟩
  obtain ⟨found, hfound⟩ := Option.isSome_iff_exists.mp hsome
  have hnumber : found.1 = member.1 := beq_iff_eq.mp (List.find?_some
    (p := fun other : Int × String => other.1 == member.1) hfound)
  have hsame : found = member := by
    by_contra hne
    have : Std.Symm fun first second : Int × String => first.1 ≠ second.1 :=
      ⟨fun _ _ h => h.symm⟩
    exact hmembers.numbers.forall (List.mem_of_find?_eq_some hfound) hmember hne hnumber
  rw [QueryBinding.isUnknown, hfound, hsame, Option.any_some, beq_iff_eq]

end EnumText

/-! ## What is published -/

theorem asciiLower_idem (c : CodePoint) : asciiLower (asciiLower c) = asciiLower c := by
  refine Fin.ext ?_
  rw [EnumText.val_asciiLower, EnumText.val_asciiLower]
  by_cases h : 0x41 ≤ c.val ∧ c.val ≤ 0x5A
  · rw [if_pos h, if_neg (by omega)]
  · rw [if_neg h, if_neg h]

/-- The published values are the members' names, but for case. -/
theorem published_iff {members : List (Int × String)} {value : List CodePoint} :
    (∃ published ∈ publishedValues members, equalsIgnoreCase value published = true) ↔
      ∃ member ∈ members, equalsIgnoreCase value (ofString member.2) = true := by
  have hlower : ∀ name : List CodePoint, (name.map asciiLower).map asciiLower =
      name.map asciiLower := by
    intro name
    rw [List.map_map]
    exact List.map_congr_left fun c _ => asciiLower_idem c
  constructor
  · rintro ⟨published, hmem, hvalue⟩
    rw [publishedValues, mem_orderBy, List.mem_map] at hmem
    obtain ⟨member, hmember, rfl⟩ := hmem
    rw [equalsIgnoreCase_iff, hlower] at hvalue
    exact ⟨member, hmember, equalsIgnoreCase_iff.mpr hvalue⟩
  · rintro ⟨member, hmember, hvalue⟩
    refine ⟨(ofString member.2).map asciiLower, ?_, ?_⟩
    · rw [publishedValues, mem_orderBy]
      exact List.mem_map.mpr ⟨member, hmember, rfl⟩
    · rw [equalsIgnoreCase_iff, hlower]
      exact equalsIgnoreCase_iff.mp hvalue

/-- What is supplied for a filter over an enumeration is taken exactly where the filter
publishes it, and for the member of that name. -/
def ExactFilter (query : QueryString) (field : FilterField) : Prop :=
  ∀ members, field.type = .enumeration members →
    ∀ value, query.first field.name = some value → value ≠ [] →
      ((∃ bound, QueryBinding.tryBindEnum members query field.name = .ok bound) ↔
        ∃ published ∈ field.values, equalsIgnoreCase value published = true) ∧
      ∀ bound, QueryBinding.tryBindEnum members query field.name = .ok bound →
        ∃ member ∈ members, equalsIgnoreCase value (ofString member.2) = true ∧
          bound = some member.1

/-- A text that names a member other than the sentinel, or names none and is not read as a
number or as a list of names, unless as the sentinel's. -/
def PlainValue (members : List (Int × String)) (value : List CodePoint) : Prop :=
  (∃ member ∈ members, member.2 ≠ "Unknown" ∧
    equalsIgnoreCase value (ofString member.2) = true) ∨
  (∀ member ∈ members, equalsIgnoreCase value (ofString member.2) = false) ∧
    ∀ number, EnumText.Reads members value number →
      QueryBinding.isUnknown members number = true

theorem tryBindEnum_eq_ok {members : List (Int × String)} {query : QueryString} {name : String}
    {value : List CodePoint} (hvalue : query.first name = some value) (hsome : value ≠ [])
    {bound : Option Int} :
    QueryBinding.tryBindEnum members query name = .ok bound ↔
      ∃ number, EnumText.Reads members value number ∧
        QueryBinding.isUnknown members number = false ∧ bound = some number := by
  have hpresent : isNullOrEmpty (query.first name) = false := by
    rw [hvalue, isNullOrEmpty, Option.getD_some, List.isEmpty_eq_false_iff]
    exact hsome
  have hfilter : ∀ number, (EnumText.tryParse members value).filter
      (fun number => !QueryBinding.isUnknown members number) = some number ↔
        EnumText.Reads members value number ∧
          QueryBinding.isUnknown members number = false := by
    intro number
    rw [Option.filter_eq_some_iff, EnumText.tryParse_eq_some, Bool.not_eq_true']
  unfold QueryBinding.tryBindEnum
  rw [hpresent, if_neg Bool.false_ne_true, hvalue, Option.getD_some]
  dsimp only
  split
  · next number hnumber =>
      obtain ⟨hreads, hknown⟩ := (hfilter number).mp hnumber
      constructor
      · intro h
        injection h with h
        exact ⟨number, hreads, hknown, h.symm⟩
      · rintro ⟨other, hother, hotherKnown, hbound⟩
        rw [(hfilter other).mpr ⟨hother, hotherKnown⟩] at hnumber
        rw [hbound, hnumber]
  · next hnone =>
      constructor
      · intro h
        cases h
      · rintro ⟨other, hother, hotherKnown, _⟩
        rw [(hfilter other).mpr ⟨hother, hotherKnown⟩] at hnone
        cases hnone

/-- What a filter over an enumeration is given is plain. -/
def PlainFilter (query : QueryString) (field : FilterField) : Prop :=
  ∀ members, field.type = .enumeration members →
    ∀ value, query.first field.name = some value → value ≠ [] → PlainValue members value

/-- A filter over an enumeration is exact where what it is given is plain. -/
theorem exactFilter_iff {query : QueryString} {field : FilterField}
    (hmembers : ∀ members, field.type = .enumeration members → EnumText.Vocabulary members) :
    ExactFilter query field ↔ PlainFilter query field := by
  refine forall_congr' fun members => forall_congr' fun htype => forall_congr' fun value =>
    imp_congr_right fun hvalue => imp_congr_right fun hsome => ?_
  have hvalues : field.values = publishedValues members := by
    rw [FilterField.values, htype]
  replace hmembers := hmembers members htype
  simp only [tryBindEnum_eq_ok hvalue hsome, hvalues, published_iff]
  by_cases hnamed : ∃ member ∈ members, equalsIgnoreCase value (ofString member.2) = true
  · obtain ⟨member, hmember, hname⟩ := hnamed
    have hreads := EnumText.tryParse_eq_some.mp (hmembers.tryParse_name hmember hname)
    have honly : ∀ number, EnumText.Reads members value number → number = member.1 := by
      intro number hnumber
      have hparsed := EnumText.tryParse_eq_some.mpr hnumber
      rw [hmembers.tryParse_name hmember hname] at hparsed
      exact (Option.some.inj hparsed).symm
    constructor
    · rintro ⟨hiff, _⟩
      obtain ⟨_, number, hnumber, hknown, _⟩ := hiff.mpr ⟨member, hmember, hname⟩
      rw [honly number hnumber] at hknown
      refine Or.inl ⟨member, hmember, fun hsentinel => ?_, hname⟩
      rw [(hmembers.isUnknown_iff hmember).mpr hsentinel] at hknown
      cases hknown
    · rintro (⟨other, hother, hsentinel, hotherName⟩ | ⟨hnone, _⟩)
      · rw [hmembers.name_unique hother hmember hotherName hname] at hsentinel
        have hknown : QueryBinding.isUnknown members member.1 = false := by
          rw [← Bool.not_eq_true, hmembers.isUnknown_iff hmember]
          exact hsentinel
        refine ⟨⟨fun _ => ⟨member, hmember, hname⟩, fun _ => ⟨_, _, hreads, hknown, rfl⟩⟩, ?_⟩
        rintro bound ⟨number, hnumber, _, hbound⟩
        rw [honly number hnumber] at hbound
        exact ⟨member, hmember, hname, hbound⟩
      · rw [hnone member hmember] at hname
        cases hname
  · have hnone : ∀ member ∈ members, equalsIgnoreCase value (ofString member.2) = false :=
      fun member hmember => Bool.eq_false_of_not_eq_true fun h => hnamed ⟨member, hmember, h⟩
    constructor
    · rintro ⟨hiff, _⟩
      refine Or.inr ⟨hnone, fun number hnumber => ?_⟩
      by_contra hknown
      exact hnamed (hiff.mp ⟨_, number, hnumber, Bool.eq_false_of_not_eq_true hknown, rfl⟩)
    · rintro (⟨member, hmember, _, hname⟩ | ⟨_, hunread⟩)
      · exact absurd ⟨member, hmember, hname⟩ hnamed
      · have hrefused : ¬ ∃ bound number, EnumText.Reads members value number ∧
            QueryBinding.isUnknown members number = false ∧ bound = some number := by
          rintro ⟨_, number, hnumber, hknown, _⟩
          rw [hunread number hnumber] at hknown
          cases hknown
        exact ⟨iff_of_false hrefused hnamed, fun bound h => absurd ⟨bound, h⟩ hrefused⟩

end Synthia
