import SogeconApp.Library.Like
import SogeconApp.Source.Auth
import SogeconApp.Source.Posts

/-!
# Role sets and the roles column

Source: `apps/api/services/roles_service.py` (parse_roles and normalize_assignable_roles of any
object, serialize_roles) and `repositories/members.py` (the LIKE predicate of
count_active_members_with_role).

Python runs through a set in no specified order, which may differ from call to call. A set is
the list of its elements.
-/

namespace SogeconApp.Source.RoleSets

open Library
open Accounts (TextRules RoleProfile adminPermissionTokens allowedRoleTokens ensureMemberRole)
open Auth (Value normalizeRolesOf splitComma textItem)

/-! ## services/roles_service.py -/

/-- An order in which a set is run through. -/
structure SetOrder where
  iterate : List String → List String
  perm : ∀ tokens, (iterate tokens).Perm tokens

/-- `parse_roles` of any object. -/
def parseRolesOf (text : TextRules) : Value → RoleProfile
  | .text value => Accounts.parseRoles text (splitComma [] value.toList)
  | .list items => Accounts.parseRoles text (items.filterMap textItem)
  | _ => Accounts.parseRoles text []

/-- The tokens of normalize_assignable_roles by the hierarchy, from the allowed ones. -/
def applyHierarchy (order : SetOrder) (filtered : List String) : List String :=
  let tokens :=
    if "super_admin" ∈ filtered then
      filtered ++ ("admin" :: adminPermissionTokens).filter fun token => token ∉ filtered
    else if "admin" ∉ filtered then
      filtered.filter fun token => token ∉ adminPermissionTokens
    else filtered
  -- the order of the request first, then the tokens that were added
  let result := filtered.filter fun role => role ∈ tokens
  result ++ order.iterate (tokens.filter fun token => token ∉ result)

def normalizeAssignableRolesOf (order : SetOrder) (text : TextRules) (value : Value) : List String :=
  let roles := normalizeRolesOf text value
  let filtered := roles.filter fun role => role ∈ allowedRoleTokens
  ensureMemberRole (applyHierarchy order filtered)

def serializeRoles (roles : List String) : String := ",".intercalate (Accounts.serializeRoles roles)

/-! ## repositories/members.py -/

def rolesWithBoundaries (roles : String) : String := "," ++ roles ++ ","

/-- The column has the role by `LIKE .. ESCAPE '\'`. -/
def countsRole (roles role : String) : Bool :=
  Like.like (rolesWithBoundaries roles).toList ("%," ++ Posts.escapeLike role ++ ",%").toList = some true

end SogeconApp.Source.RoleSets
