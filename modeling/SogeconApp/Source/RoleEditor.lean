import Mathlib.Data.List.DropRight
import SogeconApp.Source.RoleSets

/-!
# The role editor

Source: `apps/web/app/admin/members/role-shared.tsx` (normalizeRoles, applyRoleHierarchy),
`use-admin-members.ts` (toggleRole), `apps/web/lib/rbac.ts` (ensureRoles, hasPermission), and
`apps/api/services/roles_service.py` (has_permission of any object).

A JavaScript set is run through in the order in which its elements were added. Of the two
languages' trimming and lowering only what they do to printable ASCII is known.
-/

namespace SogeconApp.Source.RoleEditor

open Accounts (TextRules)
open Auth (Value)

/-! ## Texts -/

def isPrintable (char : Char) : Bool := 0x20 ≤ char.toNat ∧ char.toNat ≤ 0x7e

/-- A text of printable ASCII characters. -/
def Printable (text : String) : Prop := ∀ char ∈ text.toList, isPrintable char = true

instance (text : String) : Decidable (Printable text) := List.decidableBAll _ _

def isBlank (char : Char) : Bool := char = ' '

def trimBlanks (text : String) : String := String.ofList ((text.toList.dropWhile isBlank).rdropWhile isBlank)

/-- `A` to `Z` in lower case. -/
def lowerLetters (text : String) : String := String.ofList (text.toList.map Char.toLower)

/-- `str.strip` and `str.lower`, or `trim` and `toLowerCase`. -/
structure Folding where
  trim : String → String
  lower : String → String
  trim_printable : ∀ text, Printable text → trim text = trimBlanks text
  lower_printable : ∀ text, Printable text → lower text = lowerLetters text

/-- The server's rules of role tokens. -/
def Folding.toTextRules (folding : Folding) : TextRules where
  strip := folding.trim
  lower := folding.lower
  strip_token token allowed := by
    have tokens : ∀ token ∈ Accounts.allowedRoleTokens, Printable token ∧ trimBlanks token = token := by
      decide +kernel
    rw [folding.trim_printable token (tokens token allowed).1, (tokens token allowed).2]
  lower_token token allowed := by
    have tokens : ∀ token ∈ Accounts.allowedRoleTokens, Printable token ∧ lowerLetters token = token := by
      decide +kernel
    rw [folding.lower_printable token (tokens token allowed).1, (tokens token allowed).2]

/-! ## services/roles_service.py -/

/-- `has_permission` of any object. -/
def hasPermissionOf (text : TextRules) (rawRoles : Value) (permission : String) (allowAdminFallback : Bool) :
    Bool :=
  let profile := RoleSets.parseRolesOf text rawRoles
  if profile.grade = .superAdmin then true
  else if permission ∈ profile.permissions then true
  else if allowAdminFallback = true ∧ profile.grade = .admin then true
  else false

/-! ## lib/rbac.ts -/

/-- `ADMIN_PERMISSION_TOKENS` of the web. -/
def adminPermissionTokens : List String :=
  ["admin_posts", "admin_events", "admin_hero", "admin_notifications", "admin_signup", "admin_roles",
    "admin_profile", "admin_support"]

def ensureRoles (web : Folding) (roles : List String) : List String :=
  ((roles.map fun role => web.lower (web.trim role)).filter fun role => role ≠ "").eraseDups

def hasPermission (web : Folding) (roles : List String) (permission : String) (allowAdminFallback : Bool) :
    Bool :=
  let normalized := ensureRoles web roles
  if "super_admin" ∈ normalized then true
  else if permission ∈ normalized then true
  else if allowAdminFallback = true ∧ "admin" ∈ normalized then true
  else false

/-! ## role-shared.tsx -/

/-- `KNOWN_ROLE_TOKENS`. -/
def knownRoleTokens : List String := ["member", "admin", "super_admin"] ++ adminPermissionTokens

/-- `Set.prototype.add`, and `push` of what is not included. -/
def add (tokens : List String) (token : String) : List String :=
  if token ∈ tokens then tokens else tokens ++ [token]

/-- `Set.prototype.delete`. -/
def delete (tokens : List String) (token : String) : List String := tokens.filter (· ≠ token)

def normalizeRoles (web : Folding) (roles : List String) : List String :=
  let deduped :=
    ((roles.filter fun role => web.trim role ≠ "").map fun role => web.lower (web.trim role)).eraseDups
  let tokens :=
    if "super_admin" ∈ deduped then ("admin" :: adminPermissionTokens).foldl add deduped
    else if "admin" ∉ deduped then adminPermissionTokens.foldl delete deduped
    else deduped
  -- the order of the roles first, then the tokens that were added
  tokens.foldl add (deduped.filter fun role => role ∈ tokens)

def applyRoleHierarchy (web : Folding) (prev : List String) (role : String) (checked : Bool) : List String :=
  let others := prev.filter (· ≠ role)
  let next := if checked then others ++ [role] else others
  let next := if role = "admin" ∧ checked = false then next.filter (· ∉ adminPermissionTokens) else next
  let next :=
    if role = "super_admin" ∧ checked = true then
      next ++ ("admin" :: adminPermissionTokens).filter (· ∉ next)
    else next
  normalizeRoles web next

/-! ## use-admin-members.ts -/

def toggleRole (web : Folding) (draft : List String) (role : String) (checked : Bool) : List String :=
  applyRoleHierarchy web (normalizeRoles web draft) role checked

end SogeconApp.Source.RoleEditor
