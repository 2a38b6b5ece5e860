import Synthia.Desktop.RendererProtocol

/-!
# Only the bundle is served

Whatever a request spells, the path it is resolved to is in normal form, so the test of its
text is a test of where it lies. The fallback does not go through that test, and need not: a
plain name behind the bundle's root lies inside the bundle.
-/

namespace Synthia

open Text Paths

namespace RendererProtocol

variable {style : Style} {platform : Platform style} {bundleRoot requestUrl : List CodeUnit}

/-- The bundle's root, or a path strictly inside it. -/
def Contained (platform : Platform style) (bundleRoot filePath : List CodeUnit) : Prop :=
  ∃ root : Location style, platform.path.resolve [bundleRoot] = root.text ∧
    (filePath = root.text ∨ ∃ file : Location style, filePath = file.text ∧ Inside root file)

theorem plain_indexDocument : Plain style indexDocument := by
  have hwhole : (indexDocument.all fun c => !style.isSep c) = true := by
    cases style <;> decide
  refine ⟨by decide, by decide, by decide, fun c hc => ?_⟩
  simpa using List.all_eq_true.mp hwhole c hc

/-- Where the entry document is. -/
theorem index_text {root : Location style}
    (hroot : platform.path.resolve [bundleRoot] = root.text) :
    platform.path.resolve [bundleRoot, indexDocument] =
      (root.child indexDocument plain_indexDocument).text :=
  platform.path.child bundleRoot indexDocument plain_indexDocument (by decide) root hroot

theorem index_contained :
    Contained platform bundleRoot (platform.path.resolve [bundleRoot, indexDocument]) := by
  obtain ⟨root, hroot⟩ := platform.path.located [bundleRoot]
  exact ⟨root, hroot, .inr ⟨_, index_text hroot, inside_child plain_indexDocument⟩⟩

/-- What passes the two tests of the text lies where they say. -/
theorem contained_of_tests {paths : List (List CodeUnit)}
    (h : platform.path.resolve paths = platform.path.resolve [bundleRoot] ∨
      (platform.path.resolve [bundleRoot] ++ [style.sep]).isPrefixOf
        (platform.path.resolve paths) = true) :
    Contained platform bundleRoot (platform.path.resolve paths) := by
  obtain ⟨root, hroot⟩ := platform.path.located [bundleRoot]
  obtain ⟨file, hfile⟩ := platform.path.located paths
  refine ⟨root, hroot, ?_⟩
  rcases h with hsame | hstarts
  · exact .inl (hsame.trans hroot)
  · rw [hroot, hfile] at hstarts
    exact .inr ⟨file, hfile, inside_of_starts (List.isPrefixOf_iff_prefix.mp hstarts)⟩

theorem resolveBundlePath_contained {filePath : List CodeUnit}
    (h : resolveBundlePath platform bundleRoot requestUrl = .ok filePath) :
    Contained platform bundleRoot filePath := by
  unfold resolveBundlePath at h
  split at h
  · cases h
  · split at h
    · cases h
    · split at h
      · cases h
      · split at h
        · cases h
        · dsimp only at h
          split at h
          · next htests =>
              injection h with h
              subst h
              exact contained_of_tests htests
          · cases h

/-- The check of a resolved path is a check of its text. -/
theorem isEntryDocument_iff {filePath : List CodeUnit}
    (h : Contained platform bundleRoot filePath)
    (hne : filePath ≠ platform.path.resolve [bundleRoot]) :
    isEntryDocument platform bundleRoot filePath = true ↔
      filePath = platform.path.resolve [bundleRoot, indexDocument] := by
  obtain ⟨root, hroot, hplace⟩ := h
  obtain ⟨file, rfl, _, names, hnil, hnames⟩ := hplace.resolve_left fun heq =>
    hne (heq.trans hroot.symm)
  unfold isEntryDocument
  have hfile : file.names ≠ [] := fun hempty =>
    hnil (List.append_eq_nil_iff.mp (hnames.symm.trans hempty)).2
  rw [beq_iff_eq, platform.path.self file hfile]

/-- What is served: the root or a path strictly inside it, called the entry document exactly
where it is. -/
structure Served (platform : Platform style) (bundleRoot : List CodeUnit)
    (response : RendererResponse) : Prop where
  contained : Contained platform bundleRoot response.filePath
  entry : response.isEntryDocument = true ↔
    response.filePath = platform.path.resolve [bundleRoot, indexDocument]
  checked : response.filePath ≠ platform.path.resolve [bundleRoot] →
    isEntryDocument platform bundleRoot response.filePath = response.isEntryDocument

/-- **Only the bundle is served.** For either convention of paths, any bundle root and any
request, whatever the URL parser makes of it: a path that the request is resolved to is the
bundle's root or lies strictly inside it, and so does any path that is served. The answer is
treated as the entry document exactly where its path is that of the bundle's index. -/
theorem serves_bundle (platform : Platform style) (bundleRoot requestUrl : List CodeUnit) :
    (∀ filePath, resolveBundlePath platform bundleRoot requestUrl = .ok filePath →
      Contained platform bundleRoot filePath) ∧
      ∀ fileExists response,
        chooseRendererResponse platform bundleRoot requestUrl fileExists = .ok response →
          Served platform bundleRoot response := by
  refine ⟨fun _ => resolveBundlePath_contained, fun fileExists response h => ?_⟩
  have hchosen : Contained platform bundleRoot response.filePath ∧
      (response.isEntryDocument = true ↔
        response.filePath = platform.path.resolve [bundleRoot, indexDocument]) := by
    unfold chooseRendererResponse at h
    split at h
    · cases h
    · next resolved hresolved =>
        split at h
        · injection h with h
          subst h
          exact ⟨resolveBundlePath_contained hresolved, beq_iff_eq⟩
        · split at h
          · cases h
          · injection h with h
            subst h
            exact ⟨index_contained, iff_of_true rfl rfl⟩
  obtain ⟨hcontained, hentry⟩ := hchosen
  refine ⟨hcontained, hentry, fun hne => ?_⟩
  rw [Bool.eq_iff_iff, isEntryDocument_iff hcontained hne, hentry]

/-- The parse of one request, whose path has an escaped separator in it. -/
def parseSample (pathname requestUrl : List CodeUnit) : Option Url :=
  if requestUrl = units "app://renderer" ++ pathname then
    some ⟨rendererScheme, rendererHost, units "null", pathname⟩
  else none

def unixSample : Platform .posix where
  parseUrl := parseSample (units "/assets%2F../main.js")
  path := Posix.resolver ⟨[], [], .root, fun _ h => absurd h List.not_mem_nil⟩

def windowsSample : Platform .win32 where
  parseUrl := parseSample (units "/..%5C..%5Cwindows%5Cwin.ini")
  path := Win32.resolver
    ⟨⟨units "C:", [], .drive (by decide), fun _ h => absurd h List.not_mem_nil⟩, fun _ => [], id⟩

theorem serves_bundle_sample : ∃ response,
    chooseRendererResponse unixSample (units "/opt/bundle")
        (units "app://renderer/assets%2F../main.js") (fun _ => true) = .ok response ∧
      response.filePath = units "/opt/bundle/main.js" ∧
        Served unixSample (units "/opt/bundle") response :=
  have hchosen : chooseRendererResponse unixSample (units "/opt/bundle")
      (units "app://renderer/assets%2F../main.js") (fun _ => true) =
        .ok ⟨units "/opt/bundle/main.js", false⟩ := by decide +kernel
  ⟨_, hchosen, rfl, (serves_bundle unixSample _ _).2 _ _ hchosen⟩

example : resolveBundlePath windowsSample (units "C:\\bundle")
    (units "app://renderer/..%5C..%5Cwindows%5Cwin.ini") =
      .error ⟨units "Renderer request escapes the bundle: /..\\..\\windows\\win.ini"⟩ := by
  decide +kernel

end RendererProtocol

end Synthia
