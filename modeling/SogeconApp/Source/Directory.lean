import SogeconApp.Source.Posts

/-!
# The member directory

Source: `apps/api/repositories/members.py` (_build_member_conditions, list_members,
count_members, get_directory_member), the directory functions of `services/members_service.py`
and `directory_schemas.py`.

The three reads of a viewer do not go through the count cache. The collation of names, the
order of rows that tie under ORDER BY, and `str.lower` are parameters. The response schema
copies columns; an address stored in `email` has passed its validation when it was written.
-/

namespace SogeconApp.Source.Directory

open Library Posts

inductive Visibility where
  | all | cohort | «private»
  deriving DecidableEq, Repr

structure Member where
  id : Int
  studentId : String
  email : Option String
  name : String
  cohort : Int
  major : Option String
  visibility : Visibility
  phone : Option String
  company : Option String
  department : Option String
  jobTitle : Option String
  companyPhone : Option String
  addrPersonal : Option String
  addrCompany : Option String
  industry : Option String
  avatarPath : Option String
  updatedAt : Instant
  deriving DecidableEq, Repr

/-- The members table, with its primary key and its unique student id. -/
structure Db where
  members : List Member
  idUnique : (members.map Member.id).Nodup
  studentIdUnique : (members.map Member.studentId).Nodup

structure MemberListFilters where
  q : Option String := none
  cohort : Option Int := none
  major : Option String := none
  company : Option String := none
  industry : Option String := none
  region : Option String := none
  excludePrivate : Bool := true
  jobTitle : Option String := none
  sort : Option String := none

structure DirectoryRules where
  search : TextSearch
  lower : String → String
  collation : RowOrder String
  /-- The order of rows that tie, by their contents. -/
  tie : RowOrder Member
  tie_separates : ∀ rows : List Member, (rows.map Member.id).Nodup → tie.Separates rows

/-! ## repositories/members.py -/

/-- `if value: conds.append(..)`. -/
def whenTruthy (value : Option String) (condition : String → Truth) : List Truth :=
  match value with
  | some value => if value = "" then [] else [condition value]
  | none => []

/-- The conditions of the filters proper. -/
def filterConditions (search : TextSearch) (filters : MemberListFilters) (row : Member) : List Truth :=
  whenTruthy filters.q (fun q =>
      .or (search.matches (some row.name) (containing q))
        (.or (search.matches row.email (containing q)) (search.matches (some row.studentId) (containing q)))) ++
    (match filters.cohort with
      | some cohort => [.equals (some row.cohort) (some cohort)]
      | none => []) ++
    whenTruthy filters.major (fun value => search.matches row.major (containing value)) ++
    whenTruthy filters.company (fun value => search.matches row.company (containing value)) ++
    whenTruthy filters.industry (fun value => search.matches row.industry (containing value)) ++
    whenTruthy filters.region (fun region =>
      .or (search.matches row.addrPersonal (containing region))
        (search.matches row.addrCompany (containing region))) ++
    whenTruthy filters.jobTitle (fun value => search.matches row.jobTitle (containing value))

/-- The scalar subquery; NULL when there is no such member. -/
def viewerCohort (members : List Member) (viewerStudentId : String) : Option Int :=
  (members.find? fun viewer => viewer.studentId = viewerStudentId).map Member.cohort

def viewerClause (members : List Member) (viewerStudentId : String) (row : Member) : Truth :=
  .and (.isNotNull (viewerCohort members viewerStudentId))
    (.or (.equals (some row.studentId) (some viewerStudentId))
      (.or (.equals (some row.visibility) (some .all))
        (.and (.equals (some row.visibility) (some .cohort))
          (.equals (some row.cohort) (viewerCohort members viewerStudentId)))))

def buildMemberConditions (search : TextSearch) (members : List Member) (filters : MemberListFilters)
    (viewerStudentId : Option String) (row : Member) : List Truth :=
  filterConditions search filters row ++
    match viewerStudentId with
    | some viewerStudentId => [viewerClause members viewerStudentId row]
    | none =>
      if filters.excludePrivate then [.not (.equals (some row.visibility) (some .private))] else []

def orderColumns (rules : DirectoryRules) (sortValue : Option String) : RowOrder Member :=
  let byName := rules.collation.on Member.name
  let recent := (RowOrder.ascending Member.updatedAt).desc.thenBy byName
  match sortValue with
  | none => recent
  | some sortValue =>
    if sortValue = "" then recent
    else
      match rules.lower sortValue with
      | "cohort_desc" => (RowOrder.ascending Member.cohort).desc.thenBy byName
      | "cohort_asc" => (RowOrder.ascending Member.cohort).thenBy byName
      | "name" => byName
      | _ => recent

def selectMembers (rules : DirectoryRules) (db : Db) (filters : MemberListFilters)
    (viewerStudentId : Option String) : List Member :=
  selectWhere (fun row => .all (buildMemberConditions rules.search db.members filters viewerStudentId row))
    db.members

/-- The rows of list_members before OFFSET and LIMIT. -/
def orderedMembers (rules : DirectoryRules) (db : Db) (filters : MemberListFilters)
    (viewerStudentId : Option String) : List Member :=
  ((orderColumns rules filters.sort).thenBy rules.tie).sort (selectMembers rules db filters viewerStudentId)

def listMembers (rules : DirectoryRules) (db : Db) (limit offset : Nat) (filters : MemberListFilters)
    (viewerStudentId : Option String) : List Member :=
  page limit offset (orderedMembers rules db filters viewerStudentId)

def countMembers (rules : DirectoryRules) (db : Db) (filters : MemberListFilters)
    (viewerStudentId : Option String) : Nat :=
  (selectMembers rules db filters viewerStudentId).length

def repoGetDirectoryMember (rules : DirectoryRules) (db : Db) (memberId : Int) (viewerStudentId : String) :
    Except Failure Member :=
  let row := db.members.find? fun row =>
    (Truth.all (.equals (some row.id) (some memberId) ::
      buildMemberConditions rules.search db.members {} (some viewerStudentId) row)).Holds
  match row with
  | some row => .ok row
  | none => .error (.notFound "member_not_found")

/-! ## services/members_service.py -/

structure DirectoryMemberRead where
  id : Int
  name : String
  cohort : Int
  visibility : Visibility
  email : Option String
  major : Option String
  phone : Option String
  company : Option String
  department : Option String
  jobTitle : Option String
  companyPhone : Option String
  addrPersonal : Option String
  addrCompany : Option String
  industry : Option String
  avatarPath : Option String
  deriving DecidableEq, Repr

/-- `DirectoryMemberRead.model_validate(member)`. -/
def Member.read (row : Member) : DirectoryMemberRead :=
  { id := row.id, name := row.name, cohort := row.cohort, visibility := row.visibility, email := row.email,
    major := row.major, phone := row.phone, company := row.company, department := row.department,
    jobTitle := row.jobTitle, companyPhone := row.companyPhone, addrPersonal := row.addrPersonal,
    addrCompany := row.addrCompany, industry := row.industry, avatarPath := row.avatarPath }

def listDirectoryMembers (rules : DirectoryRules) (db : Db) (limit offset : Nat) (filters : MemberListFilters)
    (viewerStudentId : String) : List DirectoryMemberRead :=
  (listMembers rules db limit offset filters (some viewerStudentId)).map Member.read

def countDirectoryMembers (rules : DirectoryRules) (db : Db) (filters : MemberListFilters)
    (viewerStudentId : String) : Nat :=
  countMembers rules db filters (some viewerStudentId)

def getDirectoryMember (rules : DirectoryRules) (db : Db) (memberId : Int) (viewerStudentId : String) :
    Except Failure DirectoryMemberRead :=
  (repoGetDirectoryMember rules db memberId viewerStudentId).map Member.read

end SogeconApp.Source.Directory
