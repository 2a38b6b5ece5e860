import Synthia.Lib.JavaScript
import Synthia.Lib.Paths

/-!
# The renderer's protocol

The desktop shell serves the renderer's bundle over a scheme of its own. What is here maps a
request to a file of the bundle, or to the entry document where there is none and the path
has no extension.

The URL parser and `path.resolve` are the platform's.
-/

namespace Synthia

open Text Paths

/-- What a parsed `URL` says of itself. -/
structure Url where
  protocol : List CodeUnit
  host : List CodeUnit
  origin : List CodeUnit
  pathname : List CodeUnit
  deriving DecidableEq

structure Platform (style : Style) where
  /-- `new URL(text)`; `none` where it throws. -/
  parseUrl : List CodeUnit → Option Url
  path : Resolver style

namespace RendererProtocol

def rendererScheme : List CodeUnit := units "app:"

def rendererHost : List CodeUnit := units "renderer"

def rendererOrigin : List CodeUnit := rendererScheme ++ units "//" ++ rendererHost

def originOf (url : Url) : List CodeUnit :=
  if url.origin ≠ units "null" then url.origin
  else if url.host = [] then units "null"
  else url.protocol ++ units "//" ++ url.host

def indexDocument : List CodeUnit := units "index.html"

structure RendererPathError where
  message : List CodeUnit
  deriving DecidableEq

/-- The decoded path without the separators at its head; the index for nothing. -/
def relativePath (decoded : List CodeUnit) : List CodeUnit :=
  let relative := decoded.dropWhile (· == 0x2F)
  if relative = [] then indexDocument else relative

variable {style : Style}

def resolveBundlePath (platform : Platform style) (bundleRoot requestUrl : List CodeUnit) :
    Except RendererPathError (List CodeUnit) :=
  match platform.parseUrl requestUrl with
  | none => .error ⟨units "Unparseable renderer request: " ++ stringify requestUrl⟩
  | some url =>
      if url.protocol ≠ rendererScheme ∨ url.host ≠ rendererHost then
        .error ⟨units "Renderer request outside " ++ rendererOrigin ++ units ": " ++ originOf url⟩
      else
        match decodeURIComponent url.pathname with
        | none => .error ⟨units "Renderer request has an invalid percent-encoding"⟩
        | some decoded =>
            if 0x00 ∈ decoded then .error ⟨units "Renderer request contains a NUL byte"⟩
            else
              let root := platform.path.resolve [bundleRoot]
              let candidate := platform.path.resolve [root, relativePath decoded]
              if candidate = root ∨ (root ++ [style.sep]).isPrefixOf candidate = true then
                .ok candidate
              else
                .error ⟨units "Renderer request escapes the bundle: " ++ decoded⟩

structure RendererResponse where
  filePath : List CodeUnit
  isEntryDocument : Bool
  deriving DecidableEq

def chooseRendererResponse (platform : Platform style) (bundleRoot requestUrl : List CodeUnit)
    (fileExists : List CodeUnit → Bool) : Except RendererPathError RendererResponse :=
  match resolveBundlePath platform bundleRoot requestUrl with
  | .error error => .error error
  | .ok resolved =>
      if fileExists resolved then
        .ok ⟨resolved, resolved == platform.path.resolve [bundleRoot, indexDocument]⟩
      else if extname style resolved ≠ [] then
        .error ⟨units "Renderer asset not found: " ++ basename style resolved⟩
      else
        .ok ⟨platform.path.resolve [bundleRoot, indexDocument], true⟩

/-- Whether a resolved path is the entry document. -/
def isEntryDocument (platform : Platform style) (bundleRoot filePath : List CodeUnit) : Bool :=
  platform.path.resolve [filePath] == platform.path.resolve [bundleRoot, indexDocument]

end RendererProtocol

end Synthia
