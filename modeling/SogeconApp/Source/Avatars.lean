import SogeconApp.Library.Sessions

/-!
# Avatar uploads

Source: `apps/api/services/members_service.py` (update_member_avatar, _remove_previous_avatar,
get_member_by_student_id), `repositories/members.py` (get_member) and the upload route of
`routers/profile.py`, which loads the member in the same session before it calls the service.

Two stores: the members table, of whose columns only those that an upload reads are here, and the
files under `media_root`, by their relative paths. A process may stop between any two statements, and
what it had begun in the table is then rolled back while the files stay as they are. Pillow is a
parameter, and so is `str.lower`. The names that have been given to files are recorded in the world;
no statement reads the record.
-/

namespace SogeconApp.Source.Avatars

open Library Program

abbrev Bytes := List UInt8

/-- A row, by its primary key. -/
structure Member where
  studentId : String
  avatarPath : Option String
  deriving DecidableEq, Repr

/-- `complete`: `write_bytes` has returned. -/
structure StoredFile where
  bytes : Bytes
  complete : Bool
  deriving DecidableEq, Repr

inductive Failure where
  | api (code detail : String) (status : Nat)
  | notFound (code detail : String)
  /-- An UPDATE that matched no row. -/
  | staleData
  /-- A refresh that found no row. -/
  | notRefreshed
  /-- An error of the database or of the file system, or a cancellation. -/
  | interrupted
  deriving DecidableEq, Repr

inductive Stmt where
  /-- `SELECT .. WHERE student_id = ..`, which loads the member. -/
  | memberByStudentId (studentId : String)
  | makeDirectory
  /-- `int(time.time())` and `secrets.token_hex(4)`, put into a name. -/
  | newFilename (memberId : Int) (suffix : String)
  /-- `write_bytes` truncates or creates the file, and then writes it. -/
  | openFile (path : String)
  | writeBytes (path : String) (bytes : Bytes)
  /-- `db.get`: the member as the session has loaded it, or a SELECT. -/
  | getMember (memberId : Int)
  /-- The flush of the changed attribute: did the UPDATE match the row? -/
  | updateAvatar (memberId : Int) (path : String)
  | commit
  | refresh (memberId : Int)
  /-- Was there a file? -/
  | unlink (path : String)
  deriving DecidableEq

@[reducible] def Reply : Stmt → Type
  | .memberByStudentId _ => Option Int
  | .newFilename _ _ => String
  | .getMember _ | .refresh _ => Option Member
  | .updateAvatar _ _ | .unlink _ => Bool
  | _ => Unit

abbrev avatars : Signature where
  Stmt := Stmt
  Reply := Reply
  Exn := Failure

/-! ## The stores -/

structure World where
  members : Table Int Member
  files : String → Option StoredFile
  /-- The members that a session has loaded. -/
  loaded : SessionId → Int → Option Member
  /-- The paths that have been given to files. -/
  used : List String

/-- What the environment decides: an exception before the statement has an effect; the clock and the
random token; after how many bytes a write fails; and whether the reply to a commit is lost. -/
structure Choice where
  fails : Option Failure := none
  time : Nat := 0
  token : String := ""
  cutAfter : Option Nat := none
  replyLost : Bool := false

def newFilename (memberId : Int) (time : Nat) (token suffix : String) : String :=
  "member_" ++ toString memberId ++ "_" ++ toString time ++ "_" ++ token ++ suffix

def relativePath (newFilename : String) : String := "avatars/" ++ newFilename

namespace World

/-- The session loses its transaction and what it has loaded. -/
def leave (me : SessionId) (world : World) : World :=
  { world with
    members := world.members.abort me
    loaded := Function.update world.loaded me fun _ => none }

def load (me : SessionId) (memberId : Int) (member : Member) (world : World) : World :=
  { world with
    loaded := Function.update world.loaded me
      (Function.update (world.loaded me) memberId (some member)) }

def setFile (path : String) (file : Option StoredFile) (world : World) : World :=
  { world with files := Function.update world.files path file }

@[simp] theorem setFile_self (path : String) (file : Option StoredFile) (world : World) :
    (world.setFile path file).files path = file := Function.update_self ..

theorem setFile_of_ne {path other : String} (file : Option StoredFile) (world : World)
    (different : other ≠ path) :
    (world.setFile path file).files other = world.files other := Function.update_of_ne different ..

/-- A SELECT of one member, who is loaded if the row is there. -/
def read (me : SessionId) (memberId : Int) (world : World) : Option Member × World :=
  match world.members.row me memberId with
  | some member => (some member, world.load me memberId member)
  | none => (none, world)

end World

/-- A row that the session has loaded is not overwritten by what a query finds. -/
def memberByStudentId (me : SessionId) (studentId : String) (world : World) :
    Except Failure (Option Int) × World :=
  match world.members.select me fun _ member => member.studentId = studentId with
  | [] => (.ok none, world)
  | memberId :: _ =>
    match world.loaded me memberId with
    | some _ => (.ok (some memberId), world)
    | none => (.ok (some memberId), (world.read me memberId).2)

def getMember (me : SessionId) (memberId : Int) (world : World) : Except Failure (Option Member) × World :=
  match world.loaded me memberId with
  | some member => (.ok (some member), world)
  | none =>
    let (found, world) := world.read me memberId
    (.ok found, world)

def updateAvatar (me : SessionId) (memberId : Int) (path : String) (world : World) :
    Option (Except Failure Bool × World) :=
  (world.members.updateRow me memberId (fun _ => true) fun member =>
    { member with avatarPath := some path }).map
    fun (hit, members) =>
      (.ok hit,
        { world with
          members
          loaded := Function.update world.loaded me
            (Function.update (world.loaded me) memberId
              ((world.loaded me memberId).map fun member => { member with avatarPath := some path })) })

def writeBytes (path : String) (bytes : Bytes) (cutAfter : Option Nat) (world : World) :
    Except Failure Unit × World :=
  match cutAfter with
  | some length =>
    (.error .interrupted, world.setFile path (some { bytes := bytes.take length, complete := false }))
  | none => (.ok (), world.setFile path (some { bytes, complete := true }))

def commit (me : SessionId) (replyLost : Bool) (world : World) : Except Failure Unit × World :=
  (if replyLost then .error .interrupted else .ok (), { world with members := world.members.commit me })

def answer (me : SessionId) (stmt : Stmt) (choice : Choice) (world : World) :
    Option (Except Failure (Reply stmt) × World) :=
  match stmt with
  | .memberByStudentId studentId => some (memberByStudentId me studentId world)
  | .makeDirectory => some (.ok (), world)
  | .newFilename memberId suffix =>
    let name := newFilename memberId choice.time choice.token suffix
    some (.ok name, { world with used := relativePath name :: world.used })
  | .openFile path => some (.ok (), world.setFile path (some { bytes := [], complete := false }))
  | .writeBytes path bytes => some (writeBytes path bytes choice.cutAfter world)
  | .getMember memberId => some (getMember me memberId world)
  | .updateAvatar memberId path => updateAvatar me memberId path world
  | .commit => some (commit me choice.replyLost world)
  | .refresh memberId => some (.ok (world.read me memberId).1, (world.read me memberId).2)
  | .unlink path => some (.ok (world.files path).isSome, world.setFile path none)

def exec (me : SessionId) (stmt : Stmt) (choice : Choice) (world : World) :
    Option (Except Failure (Reply stmt) × World) :=
  match choice.fails with
  | some reason => some (.error reason, world)
  | none => answer me stmt choice world

abbrev machine : Machine avatars where
  World := World
  Choice := Choice
  Outside := Empty
  exec := exec
  close := World.leave
  crash := World.leave
  outside change := nomatch change

def answering : Answering machine where
  fails := Choice.fails
  answer := answer
  exec_eq me stmt choice world := by
    simp only [exec]
    cases choice.fails <;> rfl

/-! ## The service -/

abbrev Handler (α : Type) := Program avatars α

abbrev ask (stmt : Stmt) : Handler (Reply stmt) := @issue avatars stmt

structure AvatarRules where
  avatarMaxUploadBytes : Nat
  /-- `_load_and_normalize_image` and `_compress_to_jpeg`. -/
  toJpeg : Bytes → Except Failure Bytes
  lower : String → String

/-- `Path(path).suffix`. -/
def pathSuffix (path : String) : String :=
  let components := (path.toList.splitOn '/').filter fun part => part ≠ [] && part ≠ ['.']
  let name := components.getLastD []
  let extension := (name.reverse.takeWhile (· ≠ '.')).reverse
  -- The dot is neither the first nor the last character of the name.
  if extension ≠ [] ∧ extension.length + 1 < name.length then String.ofList ('.' :: extension) else ""

/-- The suffix of the new file: that of the hint if it is one of a JPEG. -/
def avatarSuffix (rules : AvatarRules) (filenameHint : Option String) : String :=
  let hint := match filenameHint with
    | some hint => if hint = "" then "avatar.jpg" else hint
    | none => "avatar.jpg"
  let suffix := rules.lower (pathSuffix hint)
  if suffix = ".jpg" ∨ suffix = ".jpeg" then suffix else ".jpg"

def removePreviousAvatar (previousPath : Option String) : Handler Unit :=
  match previousPath with
  | none => pure ()
  | some path =>
    if path = "" then pure ()
    else do
      -- `FileNotFoundError` is passed over.
      let _ ← ask (.unlink path)
      pure ()

def updateMemberAvatar (rules : AvatarRules) (memberId : Int) (fileBytes : Bytes)
    (filenameHint : Option String) : Handler Member :=
  if fileBytes = [] then raise (.api "avatar_empty" "이미지 파일이 비어 있습니다." 422)
  else if rules.avatarMaxUploadBytes < fileBytes.length then
    raise (.api "avatar_too_large_raw" "업로드 파일 크기가 허용 범위를 초과했습니다." 422)
  else
    match rules.toJpeg fileBytes with
    | .error reason => raise reason
    | .ok avatarBytes => do
      ask .makeDirectory
      let filename ← ask (.newFilename memberId (avatarSuffix rules filenameHint))
      ask (.openFile (relativePath filename))
      ask (.writeBytes (relativePath filename) avatarBytes)
      match ← ask (.getMember memberId) with
      | none => raise (.notFound "member_not_found" "Member not found")
      | some member =>
        let previousPath := member.avatarPath
        if ← ask (.updateAvatar memberId (relativePath filename)) then
          ask .commit
          match ← ask (.refresh memberId) with
          | none => raise .notRefreshed
          | some member =>
            removePreviousAvatar previousPath
            pure member
        else raise .staleData

/-- The route loads the member of the session's account first. -/
def uploadAvatar (rules : AvatarRules) (studentId : String) (fileBytes : Bytes)
    (filenameHint : Option String) : Handler Member := do
  match ← ask (.memberByStudentId studentId) with
  | none => raise (.notFound "member_not_found" "Member not found")
  | some memberId => updateMemberAvatar rules memberId fileBytes filenameHint

inductive Request where
  | service (memberId : Int) (fileBytes : Bytes) (filenameHint : Option String)
  | route (studentId : String) (fileBytes : Bytes) (filenameHint : Option String)

def Request.program (rules : AvatarRules) : Request → Handler Member
  | .service memberId fileBytes filenameHint => updateMemberAvatar rules memberId fileBytes filenameHint
  | .route studentId fileBytes filenameHint => uploadAvatar rules studentId fileBytes filenameHint

def start (rules : AvatarRules) (world : World) (requests : SessionId → Option Request) :
    Config machine Member where
  world := world
  pool me := (requests me).map (Request.program rules)

end SogeconApp.Source.Avatars
