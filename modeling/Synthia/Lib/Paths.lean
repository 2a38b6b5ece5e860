import Synthia.Lib.Text

/-!
# Paths by their text

An absolute path in normal form is a volume and the names behind it, with a separator before
each: no name is empty, a dot or two dots, and none holds a separator. There are two
conventions. In one the only volume is the empty text; in the other a volume is a drive, a
share of a host, or a namespace of devices.

A text in normal form has one reading. So whether one path lies inside another can be asked
of their texts, by whether the one and a separator begin the other.
-/

namespace Paths

open Text

inductive Style where
  | posix
  | win32
  deriving DecidableEq

/-- `path.sep`. -/
def Style.sep : Style → CodeUnit
  | .posix => 0x2F
  | .win32 => 0x5C

/-- What ends a name. -/
def Style.isSep (style : Style) (c : CodeUnit) : Bool :=
  c == 0x2F || (style == .win32 && c == 0x5C)

theorem Style.isSep_sep (style : Style) : style.isSep style.sep = true := by
  cases style <;> rfl

/-- A name that stands for itself. -/
structure Plain (style : Style) (name : List CodeUnit) : Prop where
  nonempty : name ≠ []
  here : name ≠ [0x2E]
  above : name ≠ [0x2E, 0x2E]
  whole : ∀ c ∈ name, style.isSep c = false

def isLetter (c : CodeUnit) : Bool :=
  (0x41 ≤ c.val && c.val ≤ 0x5A) || (0x61 ≤ c.val && c.val ≤ 0x7A)

/-- A part of a share's name. -/
def Part (part : List CodeUnit) : Prop := part ≠ [] ∧ ∀ c ∈ part, Style.win32.isSep c = false

/-- Two dots and a question mark apart, a host is any part. -/
inductive Volume : Style → List CodeUnit → Prop
  | root : Volume .posix []
  | drive {letter : CodeUnit} (hletter : isLetter letter = true) :
      Volume .win32 [letter, 0x3A]
  | share {host share : List CodeUnit} (hhost : Part host) (hshare : Part share)
      (hdot : host ≠ [0x2E]) (hquestion : host ≠ [0x3F]) :
      Volume .win32 (0x5C :: 0x5C :: host ++ 0x5C :: share)
  | devices {mark : CodeUnit} (hmark : mark = 0x2E ∨ mark = 0x3F) :
      Volume .win32 [0x5C, 0x5C, mark]

/-- A path in normal form. -/
structure Location (style : Style) where
  volume : List CodeUnit
  names : List (List CodeUnit)
  isVolume : Volume style volume
  plain : ∀ name ∈ names, Plain style name

/-- Names with a separator between them. -/
def join (style : Style) (names : List (List CodeUnit)) : List CodeUnit :=
  [style.sep].intercalate names

def Location.text {style : Style} (location : Location style) : List CodeUnit :=
  location.volume ++ style.sep :: join style location.names

/-- The location of a name behind this one. -/
def Location.child {style : Style} (location : Location style) (name : List CodeUnit)
    (h : Plain style name) : Location style where
  volume := location.volume
  names := location.names ++ [name]
  isVolume := location.isVolume
  plain := by
    intro other hother
    rcases List.mem_append.mp hother with hbefore | hlast
    · exact location.plain other hbefore
    · exact List.mem_singleton.mp hlast ▸ h

/-- Strictly inside: the same volume, and names behind all of the other's. -/
def Inside {style : Style} (root location : Location style) : Prop :=
  location.volume = root.volume ∧
    ∃ names, names ≠ [] ∧ location.names = root.names ++ names

theorem inside_child {style : Style} {root : Location style} {name : List CodeUnit}
    (h : Plain style name) : Inside root (root.child name h) :=
  ⟨rfl, [name], List.cons_ne_nil _ _, rfl⟩

/-! ## The reading of a text -/

section Reading

variable {style : Style}

theorem Plain.sep_notMem {name : List CodeUnit} (h : Plain style name) : style.sep ∉ name := by
  intro hmem
  have hsep := h.whole _ hmem
  rw [Style.isSep_sep] at hsep
  cases hsep

theorem Part.sep_notMem {part : List CodeUnit} (h : Part part) : (0x5C : CodeUnit) ∉ part :=
  fun hmem => Bool.false_ne_true ((h.2 _ hmem).symm.trans rfl)

/-- Names without a separator are read off their text. -/
theorem splitOn_join {names : List (List CodeUnit)} (hnames : names ≠ [])
    (h : ∀ name ∈ names, Plain style name) : (join style names).splitOn style.sep = names :=
  List.splitOn_intercalate _ (fun name hname => (h name hname).sep_notMem) hnames

theorem join_inj {first second : List (List CodeUnit)} (hfirst : ∀ name ∈ first, Plain style name)
    (hsecond : ∀ name ∈ second, Plain style name) (h : join style first = join style second) :
    first = second := by
  have hempty : ∀ names : List (List CodeUnit), (∀ name ∈ names, Plain style name) →
      join style names = join style [] → names = [] := by
    intro names hnames hjoin
    by_contra hne
    have hsplit := splitOn_join hne hnames
    rw [hjoin] at hsplit
    have hblank : ([] : List CodeUnit) ∈ names := hsplit ▸ List.mem_singleton.mpr rfl
    exact (hnames _ hblank).nonempty rfl
  by_cases hnil : first = []
  · subst hnil
    exact (hempty second hsecond h.symm).symm
  · by_cases hother : second = []
    · subst hother
      exact hempty first hfirst h
    · rw [← splitOn_join hnil hfirst, h, splitOn_join hother hsecond]

/-- Where the names of one text and a separator begin another, its names do. -/
theorem names_of_starts {root names : List (List CodeUnit)} {rest : List CodeUnit}
    (hroot : ∀ name ∈ root, Plain style name) (hnames : ∀ name ∈ names, Plain style name)
    (h : join style names = join style root ++ style.sep :: rest) :
    ∃ behind, behind ≠ [] ∧ names = root ++ behind := by
  have hne : names ≠ [] := by
    intro hnil
    rw [hnil] at h
    cases hjoin : join style root with
    | nil => rw [hjoin] at h; cases h
    | cons c text => rw [hjoin] at h; cases h
  have hsplit := splitOn_join hne hnames
  rw [h, List.splitOn_append_cons_self] at hsplit
  by_cases hnil : root = []
  · refine absurd rfl (hnames [] ?_).nonempty
    rw [← hsplit, hnil]
    exact List.mem_append_left _ (List.mem_singleton.mpr rfl)
  · rw [splitOn_join hnil hroot] at hsplit
    exact ⟨rest.splitOn style.sep, List.splitOn_ne_nil _ _, hsplit.symm⟩

theorem cut_inj {c : CodeUnit} {first second x y : List CodeUnit} (hfirst : c ∉ first)
    (hsecond : c ∉ second) (h : first ++ c :: x = second ++ c :: y) :
    first = second ∧ x = y := by
  have hsplit := congrArg (List.splitOn c) h
  rw [List.splitOn_append_cons_self_of_not_mem hfirst,
    List.splitOn_append_cons_self_of_not_mem hsecond] at hsplit
  injection hsplit with hsame _
  subst hsame
  exact ⟨rfl, (List.cons.inj (List.append_cancel_left h)).2⟩

/-- The host of a share is not the mark of a namespace. -/
theorem ne_of_host {host x y : List CodeUnit} {mark : CodeUnit} (hhost : Part host)
    (hdot : host ≠ [0x2E]) (hquestion : host ≠ [0x3F]) (hmark : mark = 0x2E ∨ mark = 0x3F) :
    host ++ 0x5C :: x ≠ mark :: Style.win32.sep :: y := by
  have hsep : (0x5C : CodeUnit) ∉ [mark] := by
    rcases hmark with rfl | rfl <;> decide
  intro h
  have heq := (cut_inj hhost.sep_notMem hsep h).1
  rcases hmark with rfl | rfl
  · exact hdot heq
  · exact hquestion heq

/-- A volume is read off a text that begins with it and a separator. -/
theorem volume_inj {first second x y : List CodeUnit} (hfirst : Volume style first)
    (hsecond : Volume style second)
    (h : first ++ style.sep :: x = second ++ style.sep :: y) : first = second ∧ x = y := by
  have hslash : isLetter 0x5C = false := by decide
  cases hfirst with
  | root =>
      cases hsecond
      injection h with _ hrest
      exact ⟨rfl, hrest⟩
  | drive hletter =>
      cases hsecond with
      | drive =>
          injection h with hhead hrest
          injection hrest with _ hrest
          injection hrest with _ hrest
          exact ⟨by rw [hhead], hrest⟩
      | share =>
          injection h with hhead _
          rw [hhead, hslash] at hletter
          cases hletter
      | devices =>
          injection h with hhead _
          rw [hhead, hslash] at hletter
          cases hletter
  | @share host part hhost hpart hdot hquestion =>
      cases hsecond with
      | drive hletter =>
          injection h with hhead _
          rw [← hhead, hslash] at hletter
          cases hletter
      | @share other otherPart hother hotherPart _ _ =>
          simp only [List.cons_append, List.append_assoc, List.cons.injEq, true_and] at h
          obtain ⟨rfl, hparts⟩ := cut_inj hhost.sep_notMem hother.sep_notMem h
          obtain ⟨rfl, rfl⟩ := cut_inj hpart.sep_notMem hotherPart.sep_notMem hparts
          exact ⟨rfl, rfl⟩
      | @devices mark hmark =>
          simp only [List.cons_append, List.append_assoc, List.cons.injEq, true_and] at h
          exact absurd h (ne_of_host hhost hdot hquestion hmark)
  | @devices mark hmark =>
      cases hsecond with
      | drive hletter =>
          injection h with hhead _
          rw [← hhead, hslash] at hletter
          cases hletter
      | @share host part hhost hpart hdot hquestion =>
          simp only [List.cons_append, List.append_assoc, List.cons.injEq, true_and] at h
          exact absurd h.symm (ne_of_host hhost hdot hquestion hmark)
      | devices hmark' =>
          simp only [List.cons_append, List.cons.injEq, true_and, List.nil_append] at h
          exact ⟨by rw [h.1], h.2⟩

/-- **Inside by the text.** What a root and a separator begin lies inside the root. -/
theorem inside_of_starts {root location : Location style}
    (h : root.text ++ [style.sep] <+: location.text) : Inside root location := by
  obtain ⟨rest, hrest⟩ := h
  simp only [Location.text, List.append_assoc, List.cons_append, List.nil_append] at hrest
  obtain ⟨hvolume, hnames⟩ := volume_inj root.isVolume location.isVolume hrest
  obtain ⟨behind, hne, hbehind⟩ := names_of_starts root.plain location.plain hnames.symm
  exact ⟨hvolume.symm, behind, hne, hbehind⟩

theorem Location.text_inj {first second : Location style} (h : first.text = second.text) :
    first.volume = second.volume ∧ first.names = second.names := by
  obtain ⟨hvolume, hjoin⟩ := volume_inj first.isVolume second.isVolume h
  exact ⟨hvolume, join_inj first.plain second.plain hjoin⟩

end Reading

end Paths

/-!
## Resolving paths

`path.resolve` of both conventions. The paths are taken from the right until one of them
says where to begin; the working directory stands before them all. What they make together
is normalised name by name: an empty name and a dot are dropped, and two dots drop the name
before them, if there is one.

A path of the Windows convention may name a drive without saying where on it, and then the
directory is the one that drive was left at.
-/

namespace Paths

open Text

/-- One name more. -/
def push (kept : List (List CodeUnit)) (name : List CodeUnit) : List (List CodeUnit) :=
  if name = [] ∨ name = [0x2E] then kept
  else if name = [0x2E, 0x2E] then kept.dropLast
  else kept ++ [name]

/-- `normalizeString`, of an absolute path. -/
def normalize (style : Style) (path : List CodeUnit) : List (List CodeUnit) :=
  (path.splitOnP style.isSep).foldl push []

/-- `path.basename`: the last name, separators behind it apart. -/
def basename (style : Style) (path : List CodeUnit) : List CodeUnit :=
  ((path.rdropWhile style.isSep).splitOnP style.isSep).getLastD []

/-- `path.extname`: the last name from its last dot on, which may not be its first
character. -/
def extname (style : Style) (path : List CodeUnit) : List CodeUnit :=
  let base := basename style path
  if base ≠ [0x2E, 0x2E] ∧ 0x2E ∈ base.drop 1 then
    0x2E :: (base.reverse.takeWhile (· ≠ 0x2E)).reverse
  else []

/-- What a platform's `path.resolve` makes of paths. -/
structure Resolver (style : Style) where
  resolve : List (List CodeUnit) → List CodeUnit
  /-- The result is absolute and normalised. -/
  located : ∀ paths, ∃ location : Location style, resolve paths = location.text
  /-- A plain name behind a path is a name behind its location. -/
  child : ∀ base name (h : Plain style name), 0x3A ∉ name → ∀ location : Location style,
    resolve [base] = location.text → resolve [base, name] = (location.child name h).text
  /-- What is resolved stays as it is, a volume apart. -/
  self : ∀ location : Location style, location.names ≠ [] →
    resolve [location.text] = location.text

/-! ### Normalising -/

section Normalising

variable {style : Style} {name : List CodeUnit} {kept : List (List CodeUnit)}

theorem push_nil : push kept [] = kept := if_pos (.inl rfl)

theorem push_plain (h : Plain style name) : push kept name = kept ++ [name] := by
  rw [push, if_neg (not_or.mpr ⟨h.nonempty, h.here⟩), if_neg h.above]

theorem push_plains (hkept : ∀ other ∈ kept, Plain style other)
    (hwhole : ∀ c ∈ name, style.isSep c = false) :
    ∀ other ∈ push kept name, Plain style other := by
  intro other hother
  unfold push at hother
  split at hother
  · exact hkept other hother
  · next hkeep =>
      split at hother
      · exact hkept other ((List.dropLast_sublist kept).subset hother)
      · next habove =>
          rcases List.mem_append.mp hother with hbefore | hlast
          · exact hkept other hbefore
          · rw [List.mem_singleton.mp hlast]
            exact ⟨fun h => hkeep (.inl h), fun h => hkeep (.inr h), habove, hwhole⟩

/-- A piece of a text that was cut at the separators holds none. -/
theorem whole_of_mem_splitOnP {path : List CodeUnit} (h : name ∈ path.splitOnP style.isSep) :
    ∀ c ∈ name, style.isSep c = false := by
  induction path generalizing name with
  | nil =>
      rw [List.splitOnP_nil, List.mem_singleton] at h
      rw [h]
      exact fun c hc => absurd hc List.not_mem_nil
  | cons c path ih =>
      rw [List.splitOnP_cons_eq_if_modifyHead] at h
      split at h
      · rcases List.mem_cons.mp h with rfl | hrest
        · exact fun c hc => absurd hc List.not_mem_nil
        · exact ih hrest
      · next hc =>
          cases hsplit : path.splitOnP style.isSep with
          | nil => exact absurd hsplit (List.splitOnP_ne_nil _ _)
          | cons first rest =>
              rw [hsplit, List.modifyHead_cons] at h
              rw [hsplit] at ih
              rcases List.mem_cons.mp h with rfl | hrest
              · intro d hd
                rcases List.mem_cons.mp hd with rfl | hd
                · exact Bool.eq_false_iff.mpr hc
                · exact ih List.mem_cons_self d hd
              · exact ih (List.mem_cons_of_mem _ hrest)

theorem foldl_push_plains {names : List (List CodeUnit)}
    (hnames : ∀ other ∈ names, ∀ c ∈ other, style.isSep c = false)
    (hkept : ∀ other ∈ kept, Plain style other) :
    ∀ other ∈ names.foldl push kept, Plain style other := by
  induction names generalizing kept with
  | nil => exact hkept
  | cons first names ih =>
      exact ih (fun other hother => hnames other (List.mem_cons_of_mem _ hother))
        (push_plains hkept (hnames first List.mem_cons_self))

theorem normalize_plain (path : List CodeUnit) :
    ∀ other ∈ normalize style path, Plain style other :=
  foldl_push_plains (fun _ => whole_of_mem_splitOnP)
    fun _ hother => absurd hother List.not_mem_nil

/-- A separator at the end adds nothing. -/
theorem normalize_sep (path : List CodeUnit) :
    normalize style (path ++ [style.sep]) = normalize style path := by
  unfold normalize
  rw [List.splitOnP_append_cons _ _ style.isSep_sep, List.foldl_append]
  exact push_nil

/-- A name at the end is the last. -/
theorem normalize_name (path : List CodeUnit) (h : Plain style name) :
    normalize style (path ++ style.sep :: name ++ [style.sep]) =
      normalize style path ++ [name] := by
  rw [normalize_sep]
  unfold normalize
  rw [List.splitOnP_append_cons _ _ style.isSep_sep, List.splitOnP_eq_singleton h.whole,
    List.foldl_append]
  exact push_plain h

theorem join_cons {names : List (List CodeUnit)} (h : names ≠ []) :
    join style (name :: names) = name ++ style.sep :: join style names := by
  obtain ⟨next, names, rfl⟩ := List.exists_cons_of_ne_nil h
  simp [join, List.intercalate]

theorem join_begins (name : List CodeUnit) (names : List (List CodeUnit)) :
    ∃ behind, join style (name :: names) = name ++ behind := by
  by_cases h : names = []
  · subst h
    exact ⟨[], List.intercalate_singleton.trans (List.append_nil name).symm⟩
  · exact ⟨_, join_cons h⟩

theorem foldl_push_join {names : List (List CodeUnit)}
    (h : ∀ other ∈ names, Plain style other) :
    ((join style names).splitOnP style.isSep).foldl push kept = kept ++ names := by
  induction names generalizing kept with
  | nil =>
      rw [List.append_nil]
      exact push_nil
  | cons name names ih =>
      have hname := h name List.mem_cons_self
      by_cases hnil : names = []
      · subst hnil
        rw [show join style [name] = name from List.intercalate_singleton,
          List.splitOnP_eq_singleton hname.whole]
        exact push_plain hname
      · rw [join_cons hnil, List.splitOnP_append_cons _ _ style.isSep_sep,
          List.splitOnP_eq_singleton hname.whole, List.singleton_append, List.foldl_cons,
          push_plain hname, ih fun other hother => h other (List.mem_cons_of_mem _ hother),
          List.append_assoc, List.singleton_append]

/-- Plain names are normalised. -/
theorem normalize_join {names : List (List CodeUnit)} (h : ∀ other ∈ names, Plain style other) :
    normalize style (join style names) = names :=
  foldl_push_join h

/-- So they are behind a separator. -/
theorem normalize_sep_join {names : List (List CodeUnit)}
    (h : ∀ other ∈ names, Plain style other) :
    normalize style (style.sep :: join style names) = names := by
  unfold normalize
  rw [← List.nil_append (style.sep :: _), List.splitOnP_append_cons _ _ style.isSep_sep,
    List.foldl_append]
  exact foldl_push_join h

end Normalising

/-! ### One volume -/

namespace Posix

/-- What the paths make together, from the right. -/
def gather : List (List CodeUnit) → List CodeUnit → List CodeUnit
  | [], tail => tail
  | path :: before, tail =>
      if path = [] then gather before tail
      else if path.head? = some 0x2F then path ++ 0x2F :: tail
      else gather before (path ++ 0x2F :: tail)

/-- `path.posix.resolve`. -/
def resolve (cwd : Location .posix) (paths : List (List CodeUnit)) : List CodeUnit :=
  0x2F :: join .posix (normalize .posix (gather (paths.reverse ++ [cwd.text]) []))

theorem gather_append (paths : List (List CodeUnit)) (tail behind : List CodeUnit) :
    gather paths (tail ++ behind) = gather paths tail ++ behind := by
  induction paths generalizing tail with
  | nil => rfl
  | cons path before ih =>
      simp only [gather]
      split
      · exact ih tail
      · split
        · simp
        · rw [← ih, List.append_assoc, List.cons_append]

theorem text_head (location : Location .posix) : location.text.head? = some 0x2F := by
  obtain ⟨volume, names, hvolume, hplain⟩ := location
  cases hvolume
  rfl

theorem gather_ends (cwd : Location .posix) (paths : List (List CodeUnit)) :
    ∃ path, gather (paths ++ [cwd.text]) [] = path ++ [0x2F] := by
  induction paths with
  | nil =>
      refine ⟨cwd.text, ?_⟩
      rw [List.nil_append, gather, if_neg, if_pos (text_head cwd)]
      intro hnil
      have hhead := text_head cwd
      rw [hnil] at hhead
      cases hhead
  | cons path before ih =>
      obtain ⟨found, hfound⟩ := ih
      rw [List.cons_append, gather]
      split
      · exact ⟨found, hfound⟩
      · split
        · exact ⟨path, rfl⟩
        · refine ⟨found ++ 0x2F :: path, ?_⟩
          rw [← List.nil_append (path ++ [0x2F]), gather_append, hfound]
          simp

def resolver (cwd : Location .posix) : Resolver .posix where
  resolve := resolve cwd
  located paths :=
    ⟨⟨[], normalize .posix (gather (paths.reverse ++ [cwd.text]) []), .root, normalize_plain _⟩,
      rfl⟩
  child := by
    intro base name h _ location hbase
    obtain ⟨path, hpath⟩ := gather_ends cwd [base]
    have hnames : normalize .posix path = location.names := by
      have htext : (⟨[], normalize .posix (gather ([base] ++ [cwd.text]) []), .root,
          normalize_plain _⟩ : Location .posix).text = location.text := hbase
      rw [← (Location.text_inj htext).2, hpath]
      exact (normalize_sep path).symm
    have hname : gather (([base, name].reverse ++ [cwd.text])) [] =
        path ++ 0x2F :: name ++ [0x2F] := by
      have hhead : name.head? ≠ some 0x2F := fun hhead =>
        absurd (h.whole _ (List.mem_of_mem_head? hhead)) (by decide)
      show gather (name :: ([base] ++ [cwd.text])) [] = _
      rw [gather, if_neg h.nonempty, if_neg hhead, ← List.nil_append (name ++ [0x2F]),
        gather_append, hpath]
      simp
    obtain ⟨volume, names, hvolume, hplain⟩ := location
    cases hvolume
    show 0x2F :: join .posix (normalize .posix (gather _ [])) =
      0x2F :: join .posix (names ++ [name])
    rw [hname]
    exact congrArg (fun names => 0x2F :: join .posix names)
      ((normalize_name path h).trans (congrArg (· ++ [name]) hnames))
  self := by
    intro location _
    obtain ⟨volume, names, hvolume, hplain⟩ := location
    cases hvolume
    have hpath : gather [0x2F :: join .posix names, cwd.text] [] =
        (0x2F :: join .posix names) ++ [0x2F] := by
      rw [gather, if_neg (List.cons_ne_nil _ _)]
      exact if_pos rfl
    show 0x2F :: join .posix (normalize .posix (gather [0x2F :: join .posix names, cwd.text] [])) =
      0x2F :: join .posix names
    rw [hpath]
    exact congrArg (fun names => 0x2F :: join .posix names)
      ((normalize_sep _).trans (normalize_sep_join hplain))

end Posix

/-! ### Many volumes -/

namespace Win32

/-- A path, cut behind its root: the volume it names, whether it begins there, and the rest. -/
structure Rooted where
  device : List CodeUnit
  isAbsolute : Bool
  rest : List CodeUnit

/-- A path behind two separators: a share of a host, a namespace, or neither. -/
def uncRoot (path behind : List CodeUnit) : Rooted :=
  let host := behind.takeWhile fun c => !Style.win32.isSep c
  let gap := (behind.dropWhile fun c => !Style.win32.isSep c).dropWhile Style.win32.isSep
  if host = [] ∨ gap = [] then ⟨[], true, path⟩
  else if host = [0x2E] ∨ host = [0x3F] then ⟨0x5C :: 0x5C :: host, true, path.drop 4⟩
  else
    ⟨0x5C :: 0x5C :: host ++ 0x5C :: gap.takeWhile fun c => !Style.win32.isSep c, true,
      gap.dropWhile fun c => !Style.win32.isSep c⟩

/-- A path behind a letter and a colon. -/
def driveRoot (letter : CodeUnit) : List CodeUnit → Rooted
  | [] => ⟨[letter, 0x3A], false, []⟩
  | c :: rest =>
      if Style.win32.isSep c then ⟨[letter, 0x3A], true, rest⟩
      else ⟨[letter, 0x3A], false, c :: rest⟩

def rooted : List CodeUnit → Rooted
  | [] => ⟨[], false, []⟩
  | [c] => if Style.win32.isSep c then ⟨[], true, []⟩ else ⟨[], false, [c]⟩
  | c :: d :: rest =>
      if Style.win32.isSep c then
        if Style.win32.isSep d then uncRoot (c :: d :: rest) rest else ⟨[], true, d :: rest⟩
      else if isLetter c && d == 0x3A then driveRoot c rest
      else ⟨[], false, c :: d :: rest⟩

/-- The volume once a path is read: the first that was named. -/
def Rooted.named (root : Rooted) (device : List CodeUnit) : List CodeUnit :=
  if device = [] then root.device else device

/-- Where a process is: its working directory, and the names of the directory that each
other drive was left at, in `process.env`. -/
structure Workplace where
  cwd : Location .win32
  leftAt : List CodeUnit → List (List CodeUnit)
  toLowerCase : List CodeUnit → List CodeUnit

/-- The volume, and what the paths make together on it, from the right. The volume is empty
until a path names one; paths of another one are passed over. -/
def gather (place : Workplace) : List (List CodeUnit) → List CodeUnit → Bool → List CodeUnit →
    List CodeUnit × List CodeUnit
  | [], device, isAbsolute, tail =>
      if device = [] then
        (place.cwd.volume,
          if isAbsolute then tail else join .win32 place.cwd.names ++ 0x5C :: tail)
      else
        (device,
          if isAbsolute then tail else join .win32 (place.leftAt device) ++ 0x5C :: tail)
  | path :: before, device, isAbsolute, tail =>
      let root := rooted path
      let named := root.named device
      if path = [] then gather place before device isAbsolute tail
      else if root.device ≠ [] ∧ device ≠ [] ∧
          place.toLowerCase root.device ≠ place.toLowerCase device then
        gather place before device isAbsolute tail
      else if isAbsolute then
        if named = [] then gather place before named true tail else (named, tail)
      else if root.isAbsolute ∧ named ≠ [] then (named, root.rest ++ 0x5C :: tail)
      else gather place before named root.isAbsolute (root.rest ++ 0x5C :: tail)

/-- `path.win32.resolve`. -/
def resolve (place : Workplace) (paths : List (List CodeUnit)) : List CodeUnit :=
  let (device, tail) := gather place paths.reverse [] false []
  device ++ 0x5C :: join .win32 (normalize .win32 tail)

/-! ### The volume -/

theorem isSep_iff {c : CodeUnit} : Style.win32.isSep c = true ↔ c = 0x2F ∨ c = 0x5C := by
  simp [Style.isSep]

theorem part_takeWhile {text : List CodeUnit}
    (h : text.takeWhile (fun c => !Style.win32.isSep c) ≠ []) :
    Part (text.takeWhile fun c => !Style.win32.isSep c) := by
  refine ⟨h, fun c hc => ?_⟩
  have hkept := List.mem_takeWhile_imp hc
  rwa [Bool.not_eq_true'] at hkept

theorem uncRoot_device (path behind : List CodeUnit) :
    (uncRoot path behind).device = [] ∨ Volume .win32 (uncRoot path behind).device := by
  unfold uncRoot
  dsimp only
  split
  · exact .inl rfl
  · next hboth =>
      obtain ⟨hhost, hgap⟩ := not_or.mp hboth
      split
      · next hmark =>
          rcases hmark with hmark | hmark
          · rw [hmark]
            exact .inr (.devices (.inl rfl))
          · rw [hmark]
            exact .inr (.devices (.inr rfl))
      · next hmark =>
          obtain ⟨hdot, hquestion⟩ := not_or.mp hmark
          refine .inr (.share (part_takeWhile hhost) (part_takeWhile ?_) hdot hquestion)
          -- What is left behind separators begins with none.
          obtain ⟨c, rest, hcons⟩ := List.exists_cons_of_ne_nil hgap
          have hhead := List.head_dropWhile_not Style.win32.isSep hgap
          simp only [hcons, List.head_cons] at hhead
          rw [hcons, List.takeWhile_cons_of_pos (by rw [hhead]; rfl)]
          exact List.cons_ne_nil _ _

theorem driveRoot_device {letter : CodeUnit} (h : isLetter letter = true)
    (rest : List CodeUnit) : Volume .win32 (driveRoot letter rest).device := by
  have hdevice : (driveRoot letter rest).device = [letter, 0x3A] := by
    cases rest with
    | nil => rfl
    | cons c rest =>
        rw [driveRoot]
        split <;> rfl
  rw [hdevice]
  exact .drive h

theorem rooted_device (path : List CodeUnit) :
    (rooted path).device = [] ∨ Volume .win32 (rooted path).device := by
  match path with
  | [] => exact .inl rfl
  | [c] =>
      rw [rooted]
      split <;> exact .inl rfl
  | c :: d :: rest =>
      rw [rooted]
      split
      · split
        · exact uncRoot_device _ _
        · exact .inl rfl
      · split
        · next hdrive =>
            rw [Bool.and_eq_true] at hdrive
            exact .inr (driveRoot_device hdrive.1 rest)
        · exact .inl rfl

/-- The names so far decide nothing, and the root of a path decides what is made of it. -/
theorem gather_cons (place : Workplace) (path : List CodeUnit) (before : List (List CodeUnit))
    (device : List CodeUnit) (isAbsolute : Bool) :
    (∀ tail, gather place (path :: before) device isAbsolute tail =
        gather place before device isAbsolute tail) ∨
      (isAbsolute = true ∧ ∀ tail, gather place (path :: before) device isAbsolute tail =
        gather place before ((rooted path).named device) true tail) ∨
      (isAbsolute = true ∧ (rooted path).named device ≠ [] ∧
        ∀ tail, gather place (path :: before) device isAbsolute tail =
          ((rooted path).named device, tail)) ∨
      (isAbsolute = false ∧ (rooted path).named device ≠ [] ∧
        ∀ tail, gather place (path :: before) device isAbsolute tail =
          ((rooted path).named device, (rooted path).rest ++ 0x5C :: tail)) ∨
      (isAbsolute = false ∧ ∀ tail, gather place (path :: before) device isAbsolute tail =
        gather place before ((rooted path).named device) (rooted path).isAbsolute
          ((rooted path).rest ++ 0x5C :: tail)) := by
  simp only [gather]
  by_cases hempty : path = []
  · exact .inl fun tail => if_pos hempty
  · simp only [if_neg hempty]
    by_cases hother : (rooted path).device ≠ [] ∧ device ≠ [] ∧
        place.toLowerCase (rooted path).device ≠ place.toLowerCase device
    · exact .inl fun tail => if_pos hother
    · simp only [if_neg hother]
      by_cases hnamed : (rooted path).named device = []
      · cases isAbsolute with
        | true => exact .inr (.inl ⟨rfl, fun tail => by simp only [if_true, if_pos hnamed]⟩)
        | false =>
            refine .inr (.inr (.inr (.inr ⟨rfl, fun tail => ?_⟩)))
            rw [if_neg Bool.false_ne_true, if_neg fun hboth => hboth.2 hnamed]
      · cases isAbsolute with
        | true =>
            refine .inr (.inr (.inl ⟨rfl, hnamed, fun tail => ?_⟩))
            simp only [if_true, if_neg hnamed]
        | false =>
            simp only [Bool.false_eq_true, if_false]
            by_cases habsolute : (rooted path).isAbsolute = true ∧ (rooted path).named device ≠ []
            · exact .inr (.inr (.inr (.inl ⟨trivial, hnamed, fun tail => if_pos habsolute⟩)))
            · exact .inr (.inr (.inr (.inr ⟨trivial, fun tail => if_neg habsolute⟩)))

theorem Rooted.named_volume {path device : List CodeUnit}
    (h : device = [] ∨ Volume .win32 device) :
    (rooted path).named device = [] ∨ Volume .win32 ((rooted path).named device) := by
  unfold Rooted.named
  split
  · exact rooted_device path
  · exact h

variable (place : Workplace)

theorem gather_device (paths : List (List CodeUnit)) {device : List CodeUnit}
    {isAbsolute : Bool} {tail : List CodeUnit} (h : device = [] ∨ Volume .win32 device) :
    Volume .win32 (gather place paths device isAbsolute tail).1 := by
  induction paths generalizing device isAbsolute tail with
  | nil =>
      rw [gather]
      split
      · exact place.cwd.isVolume
      · next hne => exact h.resolve_left hne
  | cons path before ih =>
      have hnamed : (rooted path).named device = [] ∨
          Volume .win32 ((rooted path).named device) := Rooted.named_volume h
      rcases gather_cons place path before device isAbsolute with
        hskip | ⟨_, hmore⟩ | ⟨_, hne, hdone⟩ | ⟨_, hne, hdone⟩ | ⟨_, hmore⟩
      · rw [hskip]
        exact ih h
      · rw [hmore]
        exact ih hnamed
      · rw [hdone]
        exact hnamed.resolve_left hne
      · rw [hdone]
        exact hnamed.resolve_left hne
      · rw [hmore]
        exact ih hnamed

/-! ### The names -/

theorem gather_append (paths : List (List CodeUnit)) (device : List CodeUnit)
    (isAbsolute : Bool) (tail behind : List CodeUnit) :
    gather place paths device isAbsolute (tail ++ behind) =
      ((gather place paths device isAbsolute tail).1,
        (gather place paths device isAbsolute tail).2 ++ behind) := by
  induction paths generalizing device isAbsolute tail with
  | nil =>
      simp only [gather]
      split <;> cases isAbsolute <;> simp
  | cons path before ih =>
      rcases gather_cons place path before device isAbsolute with
        hskip | ⟨_, hmore⟩ | ⟨_, _, hdone⟩ | ⟨_, _, hdone⟩ | ⟨_, hmore⟩
      · rw [hskip, hskip, ih]
      · rw [hmore, hmore, ih]
      · rw [hdone, hdone]
      · rw [hdone, hdone, List.append_assoc, List.cons_append]
      · rw [hmore, hmore, ← ih, List.append_assoc, List.cons_append]

theorem gather_absolute (paths : List (List CodeUnit)) (device tail : List CodeUnit) :
    (gather place paths device true tail).2 = tail := by
  induction paths generalizing device with
  | nil =>
      rw [gather]
      split <;> rfl
  | cons path before ih =>
      rcases gather_cons place path before device true with
        hskip | ⟨_, hmore⟩ | ⟨_, _, hdone⟩ | ⟨habsurd, _⟩ | ⟨habsurd, _⟩
      · rw [hskip, ih]
      · rw [hmore, ih]
      · rw [hdone]
      · cases habsurd
      · cases habsurd

theorem gather_ends (paths : List (List CodeUnit)) (device tail : List CodeUnit) :
    ∃ path, (gather place paths device false tail).2 = path ++ 0x5C :: tail := by
  induction paths generalizing device tail with
  | nil =>
      rw [gather]
      split
      · exact ⟨_, rfl⟩
      · exact ⟨_, rfl⟩
  | cons path before ih =>
      rcases gather_cons place path before device false with
        hskip | ⟨habsurd, _⟩ | ⟨habsurd, _⟩ | ⟨_, _, hdone⟩ | ⟨_, hmore⟩
      · rw [hskip]
        exact ih device tail
      · cases habsurd
      · cases habsurd
      · rw [hdone]
        exact ⟨_, rfl⟩
      · rw [hmore]
        cases (rooted path).isAbsolute with
        | true => exact ⟨_, gather_absolute place before _ _⟩
        | false =>
            obtain ⟨found, hfound⟩ :=
              ih ((rooted path).named device) ((rooted path).rest ++ 0x5C :: tail)
            exact ⟨found ++ 0x5C :: (rooted path).rest, by rw [hfound]; simp⟩

theorem rooted_plain {name : List CodeUnit} (h : Plain .win32 name) (hcolon : 0x3A ∉ name) :
    rooted name = ⟨[], false, name⟩ := by
  match name, h, hcolon with
  | [], h, _ => exact absurd rfl h.nonempty
  | [c], h, _ => rw [rooted, if_neg (Bool.eq_false_iff.mp (h.whole c List.mem_cons_self))]
  | c :: d :: rest, h, hcolon =>
      have hd : (d == 0x3A) = false := by
        rw [beq_eq_false_iff_ne]
        rintro rfl
        exact hcolon (List.mem_cons_of_mem _ List.mem_cons_self)
      rw [rooted, if_neg (Bool.eq_false_iff.mp (h.whole c List.mem_cons_self)), hd,
        Bool.and_false, if_neg Bool.false_ne_true]

theorem takeWhile_part {part : List CodeUnit} (h : Part part) (rest : List CodeUnit) :
    (part ++ 0x5C :: rest).takeWhile (fun c => !Style.win32.isSep c) = part ∧
      (part ++ 0x5C :: rest).dropWhile (fun c => !Style.win32.isSep c) = 0x5C :: rest := by
  have hkept : ∀ c ∈ part, (!Style.win32.isSep c) = true := fun c hc => by rw [h.2 c hc]; rfl
  have hsep : (!Style.win32.isSep 0x5C) = false := rfl
  rw [List.takeWhile_append_of_pos hkept, List.dropWhile_append_of_pos hkept,
    List.takeWhile_cons_of_neg (by rw [hsep]; exact Bool.false_ne_true),
    List.dropWhile_cons_of_neg (by rw [hsep]; exact Bool.false_ne_true), List.append_nil]
  exact ⟨rfl, rfl⟩

/-- Separators before a text that begins with none. -/
theorem dropWhile_isSep {text rest : List CodeUnit} (hne : text ≠ [])
    (h : ∀ c ∈ text, Style.win32.isSep c = false) :
    (0x5C :: (text ++ rest)).dropWhile Style.win32.isSep = text ++ rest := by
  obtain ⟨c, text, rfl⟩ := List.exists_cons_of_ne_nil hne
  rw [List.dropWhile_cons_of_pos (show Style.win32.isSep 0x5C = true from rfl), List.cons_append,
    List.dropWhile_cons_of_neg (Bool.eq_false_iff.mp (h c List.mem_cons_self))]

/-- The root of a text in normal form, unless it is a volume's. -/
theorem rooted_text (location : Location .win32) (hne : location.names ≠ []) :
    (rooted location.text).device = location.volume ∧
      (rooted location.text).isAbsolute = true ∧
        normalize .win32 (rooted location.text).rest = location.names := by
  obtain ⟨volume, names, hvolume, hplain⟩ := location
  cases hvolume with
  | @drive letter hletter =>
      have hroot : rooted (letter :: 0x3A :: 0x5C :: join .win32 names) =
          ⟨[letter, 0x3A], true, join .win32 names⟩ := by
        have hsep : Style.win32.isSep letter = false := by
          rw [Bool.eq_false_iff]
          intro h
          rcases isSep_iff.mp h with rfl | rfl <;> exact absurd hletter (by decide)
        simp only [rooted, hsep, hletter, Bool.false_eq_true, if_false]
        rfl
      show (rooted (letter :: 0x3A :: 0x5C :: join .win32 names)).device = _ ∧ _
      rw [Location.text]
      dsimp only [List.cons_append, List.nil_append, Style.sep]
      rw [hroot]
      exact ⟨rfl, rfl, normalize_join hplain⟩
  | @share host part hhost hpart hdot hquestion =>
      have hroot : rooted (0x5C :: 0x5C :: (host ++ 0x5C :: (part ++ 0x5C :: join .win32 names))) =
          ⟨0x5C :: 0x5C :: host ++ 0x5C :: part, true, 0x5C :: join .win32 names⟩ := by
        have hgap : part ++ 0x5C :: join .win32 names ≠ [] := by simp
        simp only [rooted, uncRoot, show Style.win32.isSep 0x5C = true from rfl, if_true,
          (takeWhile_part hhost _).1, (takeWhile_part hhost _).2,
          dropWhile_isSep hpart.1 hpart.2, (takeWhile_part hpart _).1,
          (takeWhile_part hpart _).2, hhost.1, hgap, hdot, hquestion, or_self, if_false]
      have htext : (⟨_, names, .share hhost hpart hdot hquestion, hplain⟩ : Location .win32).text =
          0x5C :: 0x5C :: (host ++ 0x5C :: (part ++ 0x5C :: join .win32 names)) := by
        simp [Location.text, Style.sep]
      rw [htext, hroot]
      exact ⟨rfl, rfl, normalize_sep_join hplain⟩
  | @devices mark hmark =>
      have hroot : rooted (0x5C :: 0x5C :: mark :: 0x5C :: join .win32 names) =
          ⟨[0x5C, 0x5C, mark], true, join .win32 names⟩ := by
        obtain ⟨name, rest, rfl⟩ := List.exists_cons_of_ne_nil hne
        have hname := hplain name List.mem_cons_self
        obtain ⟨behind, hbehind⟩ : ∃ behind, join .win32 (name :: rest) = name ++ behind :=
          join_begins name rest
        have hpart : Part [mark] := by
          refine ⟨List.cons_ne_nil _ _, fun c hc => ?_⟩
          rw [List.mem_singleton.mp hc]
          rcases hmark with rfl | rfl <;> rfl
        have hjoin : name ++ behind ≠ [] := fun hnil =>
          hname.nonempty (List.append_eq_nil_iff.mp hnil).1
        have hnamespace : [mark] = [0x2E] ∨ [mark] = ([0x3F] : List CodeUnit) :=
          hmark.imp (congrArg fun c => [c]) (congrArg fun c => [c])
        have hhost := takeWhile_part hpart (name ++ behind)
        simp only [List.cons_append, List.nil_append] at hhost
        simp only [rooted, uncRoot, show Style.win32.isSep 0x5C = true from rfl, if_true, hbehind,
          hhost.1, hhost.2, dropWhile_isSep hname.nonempty hname.whole, hpart.1, hjoin, hnamespace,
          or_self, if_false]
        rfl
      have htext : (⟨_, names, .devices hmark, hplain⟩ : Location .win32).text =
          0x5C :: 0x5C :: mark :: 0x5C :: join .win32 names := by
        simp [Location.text, Style.sep]
      rw [htext, hroot]
      exact ⟨rfl, rfl, normalize_join hplain⟩

def resolver : Resolver .win32 where
  resolve := resolve place
  located := by
    intro paths
    exact ⟨⟨_, normalize .win32 (gather place paths.reverse [] false []).2,
      gather_device place paths.reverse (.inl rfl), normalize_plain _⟩, rfl⟩
  child := by
    intro base name h hcolon location hbase
    obtain ⟨path, hpath⟩ := gather_ends place [base] [] []
    have htext : (⟨_, normalize .win32 (gather place [base] [] false []).2,
        gather_device place [base] (.inl rfl), normalize_plain _⟩ : Location .win32).text =
          location.text := hbase
    obtain ⟨hvolume, hnames⟩ := Location.text_inj htext
    have hname : gather place [name, base] [] false [] =
        (location.volume, path ++ 0x5C :: name ++ [0x5C]) := by
      have hmore : gather place [name, base] [] false [] =
          gather place [base] [] false ([] ++ (name ++ [0x5C])) := by
        simp only [gather, if_neg h.nonempty, rooted_plain h hcolon]
        simp [Rooted.named]
      rw [hmore, gather_append, hpath]
      exact Prod.ext hvolume (by simp)
    show (gather place [name, base] [] false []).1 ++ 0x5C ::
      join .win32 (normalize .win32 (gather place [name, base] [] false []).2) = _
    rw [hname]
    dsimp only at hnames ⊢
    rw [hpath] at hnames
    rw [show path ++ 0x5C :: name ++ [0x5C] = path ++ Style.win32.sep :: name ++ [Style.win32.sep]
      from rfl, normalize_name path h, ← normalize_sep path]
    exact congrArg (fun names => location.volume ++ 0x5C :: join .win32 (names ++ [name])) hnames
  self := by
    intro location hne
    obtain ⟨hdevice, habsolute, hnames⟩ := rooted_text location hne
    have hvolume : location.volume ≠ [] := by
      intro hnil
      have hnone : ¬ Volume .win32 [] := fun h => nomatch h
      exact hnone (hnil ▸ location.isVolume)
    have htext : location.text ≠ [] := by simp [Location.text]
    have hgather : gather place [location.text] [] false [] =
        (location.volume, (rooted location.text).rest ++ [0x5C]) := by
      simp [gather, htext, Rooted.named, hdevice, habsolute, hvolume]
    show (gather place [location.text] [] false []).1 ++ 0x5C ::
      join .win32 (normalize .win32 (gather place [location.text] [] false []).2) = _
    rw [hgather]
    exact congrArg (fun names => location.volume ++ 0x5C :: join .win32 names)
      ((normalize_sep _).trans hnames)

end Win32

end Paths
