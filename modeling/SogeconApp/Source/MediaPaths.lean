import Mathlib.Data.List.DropRight
import SogeconApp.Library.Urls

/-!
# Media paths

Source: `apps/api/media_utils.py`. A text is the list of its characters, and `MEDIA_URL_BASE` is an
argument. The only exception is the `ValueError` of `urlsplit`.
-/

namespace SogeconApp.Source.MediaPaths

open Library

abbrev Text := List Char

/-! ## str -/

/-- `str.isspace` of a character. -/
def isSpace (char : Char) : Bool :=
  let code := char.toNat
  (0x09 ≤ code ∧ code ≤ 0x0d) ∨ (0x1c ≤ code ∧ code ≤ 0x20) ∨ code = 0x85 ∨ code = 0xa0 ∨ code = 0x1680 ∨
    (0x2000 ≤ code ∧ code ≤ 0x200a) ∨ code = 0x2028 ∨ code = 0x2029 ∨ code = 0x202f ∨ code = 0x205f ∨
    code = 0x3000

def isSlash (char : Char) : Bool := char = '/'

/-- `str.strip`. -/
def strip (text : Text) : Text := (text.dropWhile isSpace).rdropWhile isSpace

/-- `str.rstrip("/")`. -/
def rstripSlashes (text : Text) : Text := text.rdropWhile isSlash

/-! ## media_utils.py -/

def trimValue (value : Option Text) : Option Text :=
  value.bind fun value => if strip value = [] then none else some (strip value)

def isAbsolute (rules : NetlocRules) (value : Text) : Except UrlError Bool := do
  let parts ← urlsplit rules value
  pure (parts.scheme ≠ [] ∧ parts.netloc ≠ [])

def pathUnderBase (path basePath : Text) : Bool :=
  basePath = [] ∨ path = basePath ∨ (basePath ++ ['/']).isPrefixOf path

def stripBasePath (path basePath : Text) : Text :=
  if basePath = [] then path
  else if path = basePath then []
  else
    let suffix := path.drop basePath.length
    if ['/'].isPrefixOf suffix then suffix.drop 1 else suffix

def stripLeadingSlashes (path : Text) : Text := path.dropWhile isSlash

def appendQueryFragment (path query fragment : Text) : Text :=
  let path := if query = [] then path else path ++ '?' :: query
  if fragment = [] then path else path ++ '#' :: fragment

/-- `get_settings().media_url_base.strip().rstrip("/")`. -/
def mediaBase (mediaUrlBase : Text) : Text := rstripSlashes (strip mediaUrlBase)

def getMediaBaseParts (rules : NetlocRules) (mediaUrlBase : Text) : Except UrlError (SplitResult × Text) := do
  let parts ← urlsplit rules (mediaBase mediaUrlBase)
  pure (parts, rstripSlashes parts.path)

def normalizeRelativePath (path basePath : Text) : Text :=
  stripLeadingSlashes <|
    if basePath ≠ [] ∧ pathUnderBase path basePath then stripBasePath path basePath else path

def normalizeAbsoluteUrl (parts baseParts : SplitResult) (basePath : Text) : Option Text :=
  if ¬(parts.scheme ≠ [] ∧ parts.netloc ≠ []) then none
  else if baseParts.scheme ≠ [] ∧ baseParts.netloc ≠ [] then
    if parts.scheme ≠ baseParts.scheme ∨ parts.netloc ≠ baseParts.netloc then none
    else if ¬pathUnderBase parts.path basePath then none
    else some (normalizeRelativePath parts.path basePath)
  else if basePath ≠ [] ∧ pathUnderBase parts.path basePath then
    some (normalizeRelativePath parts.path basePath)
  else none

/-- `value or None`. -/
def orNone (value : Text) : Option Text := if value = [] then none else some value

def normalizeMediaPath (rules : NetlocRules) (mediaUrlBase : Text) (value : Option Text) :
    Except UrlError (Option Text) :=
  match trimValue value with
  | none => pure none
  | some trimmed => do
    let (baseParts, basePath) ← getMediaBaseParts rules mediaUrlBase
    let parts ← urlsplit rules trimmed
    if parts.scheme ≠ [] ∧ parts.netloc ≠ [] then
      match normalizeAbsoluteUrl parts baseParts basePath with
      | none => pure (some trimmed)
      | some rel => pure (orNone (appendQueryFragment rel parts.query parts.fragment))
    else
      pure (orNone (appendQueryFragment (normalizeRelativePath parts.path basePath) parts.query
        parts.fragment))

/-- The empty entries are left out. -/
def normalizeMediaPaths (rules : NetlocRules) (mediaUrlBase : Text) :
    Option (List Text) → Except UrlError (Option (List Text))
  | none => pure none
  | some values => do
    let converted ← values.mapM fun value => normalizeMediaPath rules mediaUrlBase (some value)
    pure (some (converted.filterMap id))

def buildMediaUrl (rules : NetlocRules) (mediaUrlBase : Text) (value : Option Text) :
    Except UrlError (Option Text) :=
  match trimValue value with
  | none => pure none
  | some trimmed => do
    if ← isAbsolute rules trimmed then
      pure (some trimmed)
    else if mediaBase mediaUrlBase = [] then
      pure (some ('/' :: stripLeadingSlashes trimmed))
    else
      pure (some (mediaBase mediaUrlBase ++ '/' :: stripLeadingSlashes trimmed))

end SogeconApp.Source.MediaPaths
