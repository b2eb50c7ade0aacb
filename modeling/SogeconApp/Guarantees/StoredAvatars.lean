import SogeconApp.Source.Avatars

/-!
# A stored avatar always exists

Sessions upload avatars for any members, statement by statement among each other, and any of them may
fail or crash at any point. Every path in a committed row names a file that was written completely.

A path belongs to the upload that made its name until that upload commits it. What an upload removes
it has read as the previous avatar of its member before it committed its own: such a path was
committed before, so it is nobody's own, and the commit has taken it out of the only row that had it.
-/

namespace SogeconApp.Guarantees.StoredAvatars

open Library Program Source.Avatars

/-- The committed row of the member has the path. -/
def Current (world : World) (memberId : Int) (path : String) : Prop :=
  ∃ member, world.members.committed memberId = some member ∧ member.avatarPath = some path

/-- The file is there and was written to its end. -/
def Complete (world : World) (path : String) : Prop :=
  ∃ file, world.files path = some file ∧ file.complete = true

/-- The assumption on names: one that is made up was not given to a file before. -/
def unused (world : World) (choice : Choice) : Stmt → Bool
  | .newFilename memberId suffix =>
    relativePath (newFilename memberId choice.time choice.token suffix) ∉ world.used
  | _ => true

def Fresh (world : World) (_ : SessionId) (stmt : Stmt) (choice : Choice) : Prop :=
  choice.fails = none → unused world choice stmt = true

instance (world : World) (me : SessionId) (stmt : Stmt) (choice : Choice) :
    Decidable (Fresh world me stmt choice) :=
  inferInstanceAs (Decidable (_ → _))

/-- A database between uploads: every avatar has its file and is that of one member. -/
structure Settled (world : World) : Prop where
  quiet : world.members.Quiet
  closed : ∀ me memberId, world.loaded me memberId = none
  complete : ∀ memberId path, Current world memberId path → Complete world path
  used : ∀ memberId path, Current world memberId path → path ∈ world.used
  unshared : ∀ memberId other path, Current world memberId path → Current world other path → memberId = other

/-- Before the first upload there is nothing to ask of the files. -/
theorem settled_of_no_avatar {world : World} (quiet : world.members.Quiet)
    (closed : ∀ me memberId, world.loaded me memberId = none)
    (none_ : ∀ memberId path, ¬Current world memberId path) : Settled world where
  quiet := quiet
  closed := closed
  complete memberId path current := absurd current (none_ memberId path)
  used memberId path current := absurd current (none_ memberId path)
  unshared memberId _ path current := absurd current (none_ memberId path)

/-! ## Phases -/

/-- How far an upload has come, with its path and with what it has read as the previous one. -/
inductive Phase where
  | gone
  | serving
  | named (path : String)
  | opened (path : String)
  | written (path : String)
  | read (memberId : Int) (path : String) (previous : Option String)
  | updated (memberId : Int) (path : String) (previous : Option String)
  | committed (memberId : Int) (previous : Option String)
  deriving DecidableEq

namespace Phase

/-- The path that the session may still commit. -/
def own : Phase → Option String
  | named path | opened path | written path | read _ path _ | updated _ path _ => some path
  | _ => none

/-- The file of the path that the session may still commit has been written. -/
def wrote : Phase → Bool
  | written _ | read _ _ _ | updated _ _ _ => true
  | _ => false

/-- The session has not yet read the member for the previous path. -/
def reading : Phase → Bool
  | serving | named _ | opened _ | written _ => true
  | _ => false

/-- The member and the path that the session has read as the previous one. -/
def previous : Phase → Option (Int × String)
  | read memberId _ previous | updated memberId _ previous | committed memberId previous =>
    previous.map fun path => (memberId, path)
  | _ => none

def allow : Phase → Stmt → Prop
  | serving, .memberByStudentId _ | serving, .makeDirectory | serving, .newFilename _ _ => True
  | named path, .openFile target => target = path
  | opened path, .writeBytes target _ => target = path
  | written _, .getMember _ => True
  | read memberId path _, .updateAvatar target newPath => target = memberId ∧ newPath = path
  | updated _ _ _, .commit => True
  | committed _ _, .refresh _ => True
  | committed _ previous, .unlink path => previous = some path
  | _, _ => False

/-- Where a successful statement leads; the others end the upload. -/
def next (phase : Phase) (stmt : Stmt) (reply : Except Failure (Reply stmt)) : Phase :=
  match phase, stmt, reply with
  | serving, .newFilename _ _, .ok filename => named (relativePath filename)
  | serving, .memberByStudentId _, .ok _ | serving, .makeDirectory, .ok _ => serving
  | named path, .openFile _, .ok _ => opened path
  | opened path, .writeBytes _ _, .ok _ => written path
  | written path, .getMember memberId, .ok (some member) => read memberId path member.avatarPath
  | read memberId path previous, .updateAvatar _ _, .ok true => updated memberId path previous
  | updated memberId _ previous, .commit, .ok _ => committed memberId previous
  | committed memberId previous, .refresh _, .ok _ => committed memberId previous
  | committed memberId previous, .unlink _, .ok _ => committed memberId previous
  | _, _, _ => gone

end Phase

abbrev upload : Protocol avatars where
  Phase := Phase
  gone := .gone
  allow := Phase.allow
  next := Phase.next
  answers _ _ := True

theorem removePreviousAvatar_through (memberId : Int) (previous : Option String) :
    upload.Through (.committed memberId previous) (removePreviousAvatar previous) fun _ _ => True := by
  unfold removePreviousAvatar
  cases previous with
  | none => exact .ret trivial
  | some path =>
    dsimp only
    split
    · exact .ret trivial
    · exact .step rfl fun _ _ => .ret trivial

theorem updateMemberAvatar_through (rules : AvatarRules) (memberId : Int) (fileBytes : Bytes)
    (filenameHint : Option String) :
    upload.Through .serving (updateMemberAvatar rules memberId fileBytes filenameHint) fun _ _ => True := by
  unfold updateMemberAvatar
  split
  · exact .raise
  split
  · exact .raise
  split
  · exact .raise
  · refine .step trivial fun _ _ => .step trivial fun filename _ => ?_
    refine .step rfl fun _ _ => .step rfl fun _ _ => .step trivial fun found _ => ?_
    cases found with
    | none => exact .raise
    | some member =>
      refine .step ⟨rfl, rfl⟩ fun hit _ => ?_
      cases hit with
      | false => exact .raise
      | true =>
        refine .step trivial fun _ _ => .step trivial fun found _ => ?_
        cases found with
        | none => exact .raise
        | some refreshed =>
          exact (removePreviousAvatar_through memberId member.avatarPath).bind fun _ _ _ => .ret trivial

theorem request_follows (rules : AvatarRules) (request : Request) :
    upload.Follows .serving (request.program rules) := by
  cases request with
  | service memberId fileBytes filenameHint =>
    exact (updateMemberAvatar_through rules memberId fileBytes filenameHint).follows
  | route studentId fileBytes filenameHint =>
    have through : upload.Through .serving (uploadAvatar rules studentId fileBytes filenameHint)
        fun _ _ => True := by
      refine .step trivial fun found _ => ?_
      cases found with
      | none => exact .raise
      | some memberId => exact updateMemberAvatar_through rules memberId fileBytes filenameHint
    exact through.follows

/-! ## The invariant -/

/-- The path was committed for the member, so it is nobody's to commit any more and no other member's. -/
structure Past (world : World) (phase : SessionId → Phase) (memberId : Int) (path : String) : Prop where
  used : path ∈ world.used
  free : ∀ me, (phase me).own ≠ some path
  only : ∀ other, Current world other path → other = memberId

structure Kept (world : World) (phase : SessionId → Phase) : Prop where
  complete : ∀ memberId path, Current world memberId path → Complete world path
  current : ∀ memberId path, Current world memberId path → Past world phase memberId path
  loaded : ∀ me memberId member path, (phase me).reading = true →
    world.loaded me memberId = some member → member.avatarPath = some path →
      Past world phase memberId path
  previous : ∀ me memberId path, (phase me).previous = some (memberId, path) →
    Past world phase memberId path
  /-- A commit has taken the previous path out of the table. -/
  retired : ∀ me memberId path, phase me = .committed memberId (some path) → ¬Current world memberId path
  ownUsed : ∀ me path, (phase me).own = some path → path ∈ world.used
  ownOnly : ∀ me other path, (phase me).own = some path → (phase other).own = some path → me = other
  wrote : ∀ me path, (phase me).own = some path → (phase me).wrote = true → Complete world path
  /-- What is drafted is the own path of its session, or will be rolled back. -/
  drafts : ∀ memberId owner version, (world.members.slot memberId).draft = some (owner, version) →
    phase owner = .gone ∨ ∃ path previous member, phase owner = .updated memberId path previous ∧
      version = some member ∧ member.avatarPath = some path
  updated : ∀ me memberId path previous, phase me = .updated memberId path previous →
    ∃ member, (world.members.slot memberId).draft = some (me, some member) ∧ member.avatarPath = some path

variable {world world' : World} {phase phase' : SessionId → Phase} {me : SessionId} {memberId : Int}
  {path : String}

/-- A path that is not yet committed is in no row. -/
theorem Kept.own_not_current (kept : Kept world phase) (own : (phase me).own = some path) :
    ¬Current world memberId path :=
  fun current => (kept.current memberId path current).free me own

/-- Sessions may give their paths up, and the table be read, without a path of the past changing. -/
theorem Past.still (past : Past world phase memberId path) (used : ∀ path ∈ world.used, path ∈ world'.used)
    (members : world'.members = world.members)
    (shrinks : ∀ me path, (phase' me).own = some path → (phase me).own = some path) :
    Past world' phase' memberId path where
  used := used path past.used
  free me own := past.free me (shrinks me path own)
  only other current := by
    unfold Current at current
    rw [members] at current
    exact past.only other current

/-- A session has nothing drafted before its UPDATE. -/
theorem Kept.undrafted (kept : Kept world phase) (present : phase me ≠ .gone)
    (before : ∀ memberId path previous, phase me ≠ .updated memberId path previous) (memberId : Int)
    (version : Option Member) : (world.members.slot memberId).draft ≠ some (me, version) := by
  intro drafted
  rcases kept.drafts memberId me version drafted with gone | ⟨path, previous, member, updated, -⟩
  · exact present gone
  · exact before memberId path previous updated

/-- What a session without a draft reads is committed. -/
theorem Kept.row_current (kept : Kept world phase) (present : phase me ≠ .gone)
    (before : ∀ memberId path previous, phase me ≠ .updated memberId path previous) {member : Member}
    (seen : world.members.row me memberId = some member) (has : member.avatarPath = some path) :
    Current world memberId path := by
  rcases Table.row_cases me world.members memberId with committed | drafted
  · exact ⟨member, committed.trans seen, has⟩
  · exact absurd drafted (kept.undrafted present before memberId _)

/-! ## One store changes -/

/-- What the sessions have loaded may change as long as whoever still reads has loaded paths of the past. -/
theorem Kept.withLoaded (kept : Kept world phase) {loaded : SessionId → Int → Option Member}
    (past : ∀ me memberId member path, (phase me).reading = true → loaded me memberId = some member →
      member.avatarPath = some path → Past world phase memberId path) :
    Kept { world with loaded } phase where
  complete := kept.complete
  current key path current :=
    (kept.current key path current).still (fun _ member => member) rfl fun _ _ own => own
  loaded me key member path reading loaded has :=
    (past me key member path reading loaded has).still (fun _ member => member) rfl fun _ _ own => own
  previous other key path previous :=
    (kept.previous other key path previous).still (fun _ member => member) rfl fun _ _ own => own
  retired := kept.retired
  ownUsed := kept.ownUsed
  ownOnly := kept.ownOnly
  wrote := kept.wrote
  drafts := kept.drafts
  updated := kept.updated

theorem Kept.load (kept : Kept world phase) (member : Member)
    (past : (phase me).reading = true → ∀ path, member.avatarPath = some path → Past world phase memberId path) :
    Kept (world.load me memberId member) phase := by
  refine kept.withLoaded fun other key found path reading loaded has => ?_
  by_cases mine : other = me
  · subst mine
    rw [Function.update_self] at loaded
    by_cases same : key = memberId
    · subst same
      rw [Function.update_self] at loaded
      cases loaded
      exact past reading path has
    · rw [Function.update_of_ne same] at loaded
      exact kept.loaded other key found path reading loaded has
  · rw [Function.update_of_ne mine] at loaded
    exact kept.loaded other key found path reading loaded has

/-- What a session has loaded does not matter once it has read the previous path. -/
theorem Kept.reload (kept : Kept world phase) (me : SessionId) (past : (phase me).reading = false)
    (loaded : SessionId → Int → Option Member) (same : ∀ other, other ≠ me → loaded other = world.loaded other) :
    Kept { world with loaded } phase := by
  refine kept.withLoaded fun other key found path reading seen has => ?_
  have mine : other ≠ me := by
    intro mine
    rw [mine, past] at reading
    cases reading
  have seen : world.loaded other key = some found := by rw [← same other mine, ← seen]
  exact kept.loaded other key found path reading seen has

/-- A file may change where it is written to its end, or where nobody counts on it. -/
theorem Kept.setFile (kept : Kept world phase) (file : Option StoredFile)
    (safe : (∃ stored, file = some stored ∧ stored.complete = true) ∨
      (∀ memberId, ¬Current world memberId path) ∧
        ∀ me, (phase me).own = some path → (phase me).wrote = false) :
    Kept (world.setFile path file) phase := by
  have stays (target : String) (complete : Complete world target)
      (counted : target = path → ∃ stored, file = some stored ∧ stored.complete = true) :
      Complete (world.setFile path file) target := by
    unfold Complete
    by_cases same : target = path
    · rw [same, World.setFile_self]
      exact counted same
    · rw [World.setFile_of_ne file world same]
      exact complete
  constructor
  · intro memberId target current
    refine stays target (kept.complete memberId target current) fun same => ?_
    exact safe.resolve_right fun unseen => unseen.1 memberId (same ▸ current)
  · intro memberId target current
    exact (kept.current memberId target current).still (fun _ member => member) rfl fun _ _ own => own
  · intro me memberId member target reading loaded has
    exact (kept.loaded me memberId member target reading loaded has).still (fun _ member => member) rfl
      fun _ _ own => own
  · intro me memberId target previous
    exact (kept.previous me memberId target previous).still (fun _ member => member) rfl fun _ _ own => own
  · exact kept.retired
  · exact kept.ownUsed
  · exact kept.ownOnly
  · intro me target own wrote
    refine stays target (kept.wrote me target own wrote) fun same => ?_
    refine safe.resolve_right fun unseen => ?_
    rw [unseen.2 me (same ▸ own)] at wrote
    cases wrote
  · exact kept.drafts
  · exact kept.updated

/-- A session may write the file of its own path while nobody counts on it. -/
theorem Kept.setOwn (kept : Kept world phase) (own : (phase me).own = some path)
    (unwritten : (phase me).wrote = false) (file : Option StoredFile) : Kept (world.setFile path file) phase := by
  apply kept.setFile file
  refine .inr ⟨fun _ => kept.own_not_current own, fun other has => ?_⟩
  rw [kept.ownOnly other me path has own]
  exact unwritten

/-! ## One session moves on -/

section Moves

variable {now : Phase}

/-- Whoever reads on has the loaded paths of the past, if nobody starts to read. -/
theorem Kept.loaded_update (kept : Kept world phase)
    (reading : now.reading = true → (phase me).reading = true) {other : SessionId} {member : Member}
    (reads : (Function.update phase me now other).reading = true)
    (loaded : world.loaded other memberId = some member) (has : member.avatarPath = some path) :
    Past world phase memberId path := by
  by_cases mine : other = me
  · subst mine
    rw [Function.update_self] at reads
    exact kept.loaded other memberId member path (reading reads) loaded has
  · rw [Function.update_of_ne mine] at reads
    exact kept.loaded other memberId member path reads loaded has

theorem Kept.previous_update (kept : Kept world phase)
    (previous : ∀ memberId path, now.previous = some (memberId, path) → Past world phase memberId path)
    {other : SessionId} (has : (Function.update phase me now other).previous = some (memberId, path)) :
    Past world phase memberId path := by
  by_cases mine : other = me
  · subst mine
    rw [Function.update_self] at has
    exact previous memberId path has
  · rw [Function.update_of_ne mine] at has
    exact kept.previous other memberId path has

/-- The session goes on without drafting anything, or ends. It keeps its path, gives it up, or has a
name that was not used before. -/
theorem Kept.enter (kept : Kept world phase) {used : List String} (grows : ∀ path ∈ world.used, path ∈ used)
    (own : ∀ path, now.own = some path →
      (phase me).own = some path ∨ path ∉ world.used ∧ path ∈ used)
    (wrote : ∀ path, now.own = some path → now.wrote = true → Complete world path)
    (reading : now.reading = true → (phase me).reading = true)
    (previous : ∀ memberId path, now.previous = some (memberId, path) → Past world phase memberId path)
    (before : ∀ memberId path previous, now ≠ .updated memberId path previous)
    (after : ∀ memberId previous, now ≠ .committed memberId previous)
    (left : now = .gone ∨ ∀ memberId version, (world.members.slot memberId).draft ≠ some (me, version)) :
    Kept { world with used } (Function.update phase me now) := by
  have owns (other : SessionId) (path : String) (has : (Function.update phase me now other).own = some path) :
      (phase other).own = some path ∨ other = me ∧ path ∉ world.used ∧ path ∈ used := by
    by_cases mine : other = me
    · subst mine
      rw [Function.update_self] at has
      exact (own path has).imp id fun fresh => ⟨rfl, fresh⟩
    · rw [Function.update_of_ne mine] at has
      exact .inl has
  have still (memberId : Int) (path : String) (past : Past world phase memberId path) :
      Past { world with used } (Function.update phase me now) memberId path := by
    refine ⟨grows path past.used, fun other has => ?_, past.only⟩
    rcases owns other path has with has | ⟨-, fresh, -⟩
    · exact past.free other has
    · exact fresh past.used
  constructor
  · exact kept.complete
  · exact fun memberId path current => still memberId path (kept.current memberId path current)
  · intro other memberId member path reads loaded has
    exact still memberId path (kept.loaded_update reading reads loaded has)
  · intro other memberId path has
    exact still memberId path (kept.previous_update previous has)
  · intro other memberId path committed
    by_cases mine : other = me
    · subst mine
      rw [Function.update_self] at committed
      exact absurd committed (after memberId _)
    · rw [Function.update_of_ne mine] at committed
      exact kept.retired other memberId path committed
  · intro other path has
    rcases owns other path has with has | ⟨-, -, named⟩
    · exact grows path (kept.ownUsed other path has)
    · exact named
  · intro other another path has has'
    rcases owns other path has with has | ⟨rfl, fresh, -⟩
    · rcases owns another path has' with has' | ⟨-, fresh, -⟩
      · exact kept.ownOnly other another path has has'
      · exact absurd (kept.ownUsed other path has) fresh
    · rcases owns another path has' with has' | ⟨rfl, -, -⟩
      · exact absurd (kept.ownUsed another path has') fresh
      · rfl
  · intro other path has written
    by_cases mine : other = me
    · subst mine
      rw [Function.update_self] at has written
      exact wrote path has written
    · rw [Function.update_of_ne mine] at has written
      exact kept.wrote other path has written
  · intro memberId owner version drafted
    by_cases mine : owner = me
    · subst mine
      rw [Function.update_self]
      exact .inl (left.resolve_right fun undrafted => undrafted memberId version drafted)
    · rw [Function.update_of_ne mine]
      exact kept.drafts memberId owner version drafted
  · intro other memberId path previous updated
    by_cases mine : other = me
    · subst mine
      rw [Function.update_self] at updated
      exact absurd updated (before memberId path previous)
    · rw [Function.update_of_ne mine] at updated
      exact kept.updated other memberId path previous updated

/-- A session that fails, ends or crashes gives its path up. -/
theorem Kept.gone (kept : Kept world phase) : Kept world (Function.update phase me .gone) :=
  kept.enter (fun _ member => member) nofun nofun nofun nofun nofun nofun (.inl rfl)

/-- The UPDATE drafts the session's own path. -/
theorem Kept.update (kept : Kept world phase) {previous : Option String} {member : Member}
    (reads : phase me = .read memberId path previous)
    (free : (world.members.slot memberId).lockedFor me = false) :
    Kept { world with members := world.members.write me memberId (some { member with avatarPath := some path }) }
      (Function.update phase me (.updated memberId path previous)) := by
  have owns (other : SessionId) : (Function.update phase me (.updated memberId path previous) other).own =
      (phase other).own := by
    by_cases mine : other = me
    · rw [mine, Function.update_self, reads]
      rfl
    · rw [Function.update_of_ne mine]
  have still (key : Int) (target : String) (past : Past world phase key target) :
      Past
        { world with
          members := world.members.write me memberId (some { member with avatarPath := some path }) }
        (Function.update phase me (.updated memberId path previous)) key target := by
    refine ⟨past.used, fun other has => past.free other (owns other ▸ has), fun other current => ?_⟩
    unfold Current at current
    simp only [Table.write_committed] at current
    exact past.only other current
  constructor
  · intro key target current
    unfold Current at current
    simp only [Table.write_committed] at current
    exact kept.complete key target current
  · intro key target current
    apply still
    unfold Current at current
    simp only [Table.write_committed] at current
    exact kept.current key target current
  · intro other key found target reading seen has
    exact still key target (kept.loaded_update (by nofun) reading seen has)
  · intro other key target has
    have before (key : Int) (target : String)
        (has : (Phase.updated memberId path previous).previous = some (key, target)) :
        Past world phase key target := kept.previous me key target (by rw [reads]; exact has)
    exact still key target (kept.previous_update before has)
  · intro other key target committed current
    unfold Current at current
    simp only [Table.write_committed] at current
    by_cases mine : other = me
    · rw [mine, Function.update_self] at committed
      cases committed
    · rw [Function.update_of_ne mine] at committed
      exact kept.retired other key target committed current
  · exact fun other target has => kept.ownUsed other target (owns other ▸ has)
  · exact fun other another target has has' =>
      kept.ownOnly other another target (owns other ▸ has) (owns another ▸ has')
  · intro other target has written
    rw [owns] at has
    by_cases mine : other = me
    · exact kept.wrote other target has (by rw [mine, reads]; rfl)
    · rw [Function.update_of_ne mine] at written
      exact kept.wrote other target has written
  · intro key owner version drafted
    by_cases here : key = memberId
    · subst here
      rw [Table.write_slot_self, Slot.write_draft] at drafted
      cases drafted
      rw [Function.update_self]
      exact .inr ⟨path, previous, _, rfl, rfl, rfl⟩
    · rw [Table.write_slot_of_ne here] at drafted
      by_cases mine : owner = me
      · subst mine
        exact absurd drafted (kept.undrafted (by rw [reads]; nofun) (by rw [reads]; nofun) key version)
      · rw [Function.update_of_ne mine]
        exact kept.drafts key owner version drafted
  · intro other key target before updated
    by_cases mine : other = me
    · subst mine
      rw [Function.update_self] at updated
      cases updated
      exact ⟨_, by rw [Table.write_slot_self, Slot.write_draft], rfl⟩
    · rw [Function.update_of_ne mine] at updated
      obtain ⟨stored, drafted, has⟩ := kept.updated other key target before updated
      have elsewhere : key ≠ memberId := by
        intro here
        subst here
        exact mine (Slot.lockedFor_eq_false.mp free other _ drafted)
      exact ⟨stored, by rw [Table.write_slot_of_ne elsewhere, drafted], has⟩

/-- The commit of an upload changes the row of its member to its own path, and no other row. -/
theorem Kept.current_commit (kept : Kept world phase) {previous : Option String}
    (updated : phase me = .updated memberId path previous) {key : Int} {target : String}
    (current : Current { world with members := world.members.commit me } key target) :
    key ≠ memberId ∧ Current world key target ∨ key = memberId ∧ target = path := by
  obtain ⟨member, committed, has⟩ := current
  by_cases here : key = memberId
  · subst here
    obtain ⟨drafted, mine, own⟩ := kept.updated me _ path previous updated
    rw [Table.committed_commit_of_draft mine] at committed
    cases committed
    rw [own] at has
    exact .inr ⟨rfl, (Option.some.inj has).symm⟩
  · refine .inl ⟨here, member, ?_, has⟩
    have untouched (version : Option Member) : (world.members.slot key).draft ≠ some (me, version) := by
      intro drafted
      rcases kept.drafts key me version drafted with gone | ⟨_, _, _, also, -⟩
      · rw [updated] at gone
        cases gone
      · rw [updated] at also
        cases also
        exact here rfl
    rwa [Table.committed_commit_of_not_mine untouched] at committed

/-- The commit makes the own path the member's, and the previous one nobody's. -/
theorem Kept.commit (kept : Kept world phase) {previous : Option String}
    (updated : phase me = .updated memberId path previous) :
    Kept { world with members := world.members.commit me }
      (Function.update phase me (.committed memberId previous)) := by
  have own : (phase me).own = some path := by rw [updated]; rfl
  have owns (other : SessionId) (target : String)
      (has : (Function.update phase me (.committed memberId previous) other).own = some target) :
      other ≠ me ∧ (phase other).own = some target := by
    by_cases mine : other = me
    · rw [mine, Function.update_self] at has
      cases has
    · rw [Function.update_of_ne mine] at has
      exact ⟨mine, has⟩
  have still (key : Int) (target : String) (past : Past world phase key target) :
      Past { world with members := world.members.commit me }
        (Function.update phase me (.committed memberId previous)) key target := by
    refine ⟨past.used, fun other has => past.free other (owns other target has).2, fun other current => ?_⟩
    rcases kept.current_commit updated current with ⟨-, current⟩ | ⟨-, rfl⟩
    · exact past.only other current
    · exact absurd own (past.free me)
  have new : Past { world with members := world.members.commit me }
      (Function.update phase me (.committed memberId previous)) memberId path := by
    refine ⟨kept.ownUsed me path own, fun other has => ?_, fun other current => ?_⟩
    · exact (owns other path has).1 (kept.ownOnly other me path (owns other path has).2 own)
    · rcases kept.current_commit updated current with ⟨-, current⟩ | ⟨same, -⟩
      · exact absurd current (kept.own_not_current own)
      · exact same
  have unlike (key : Int) (target : String) (past : Past world phase key target)
      (out : ¬Current world key target ∨ key = memberId) :
      ¬Current { world with members := world.members.commit me } key target := by
    intro current
    rcases kept.current_commit updated current with ⟨other, current⟩ | ⟨-, rfl⟩
    · exact out.elim (fun absent => absent current) other
    · exact past.free me own
  constructor
  · intro key target current
    rcases kept.current_commit updated current with ⟨-, current⟩ | ⟨-, rfl⟩
    · exact kept.complete key target current
    · exact kept.wrote me target own (by rw [updated]; rfl)
  · intro key target current
    rcases kept.current_commit updated current with ⟨-, current⟩ | ⟨rfl, rfl⟩
    · exact still key target (kept.current key target current)
    · exact new
  · intro other key found target reading seen has
    exact still key target (kept.loaded_update (by nofun) reading seen has)
  · intro other key target has
    have before (key : Int) (target : String)
        (has : (Phase.committed memberId previous).previous = some (key, target)) :
        Past world phase key target := kept.previous me key target (by rw [updated]; exact has)
    exact still key target (kept.previous_update before has)
  · intro other key target committed
    by_cases mine : other = me
    · subst mine
      rw [Function.update_self] at committed
      cases committed
      exact unlike memberId target (kept.previous other memberId target (by rw [updated]; rfl)) (.inr rfl)
    · rw [Function.update_of_ne mine] at committed
      have past := kept.previous other key target (by rw [committed]; rfl)
      exact unlike key target past (.inl (kept.retired other key target committed))
  · exact fun other target has => kept.ownUsed other target (owns other target has).2
  · exact fun other another target has has' =>
      kept.ownOnly other another target (owns other target has).2 (owns another target has').2
  · intro other target has written
    obtain ⟨mine, has⟩ := owns other target has
    rw [Function.update_of_ne mine] at written
    exact kept.wrote other target has written
  · intro key owner version drafted
    obtain ⟨drafted, mine⟩ := Slot.draft_commit_eq.mp drafted
    rw [Function.update_of_ne mine]
    exact kept.drafts key owner version drafted
  · intro other key target before updates
    have mine : other ≠ me := by
      intro mine
      rw [mine, Function.update_self] at updates
      cases updates
    rw [Function.update_of_ne mine] at updates
    obtain ⟨stored, drafted, has⟩ := kept.updated other key target before updates
    exact ⟨stored, Slot.draft_commit_eq.mpr ⟨drafted, mine⟩, has⟩

/-- A session that is gone takes its transaction with it. -/
theorem Kept.leave (kept : Kept world phase) :
    Kept (world.leave me) (Function.update phase me .gone) := by
  have left : Kept world (Function.update phase me .gone) := kept.gone
  have current (key : Int) (target : String) :
      Current (world.leave me) key target ↔ Current world key target := by
    unfold Current World.leave
    simp only [Table.abort_committed]
  have still (key : Int) (target : String) (past : Past world (Function.update phase me .gone) key target) :
      Past (world.leave me) (Function.update phase me .gone) key target :=
    ⟨past.used, past.free, fun other has => past.only other ((current other target).mp has)⟩
  constructor
  · exact fun key target has => left.complete key target ((current key target).mp has)
  · exact fun key target has => still key target (left.current key target ((current key target).mp has))
  · intro other key found target reading seen has
    apply still
    have mine : other ≠ me := by
      intro mine
      rw [mine, Function.update_self] at reading
      cases reading
    simp only [World.leave, Function.update_of_ne mine] at seen
    exact left.loaded other key found target reading seen has
  · exact fun other key target has => still key target (left.previous other key target has)
  · exact fun other key target committed has =>
      left.retired other key target committed ((current key target).mp has)
  · exact left.ownUsed
  · exact left.ownOnly
  · exact left.wrote
  · intro key owner version drafted
    exact left.drafts key owner version (Slot.draft_abort_eq.mp drafted).1
  · intro other key target before updates
    obtain ⟨stored, drafted, has⟩ := left.updated other key target before updates
    have mine : other ≠ me := by
      intro mine
      rw [mine, Function.update_self] at updates
      cases updates
    exact ⟨stored, Slot.draft_abort_eq.mpr ⟨drafted, mine⟩, has⟩

end Moves

/-! ## The statements -/

/-- Where a session goes on reading, what it has read is loaded. -/
theorem Kept.read (kept : Kept world phase) (present : phase me ≠ .gone)
    (before : ∀ memberId path previous, phase me ≠ .updated memberId path previous) :
    Kept (world.read me memberId).2 phase := by
  unfold World.read
  split
  · next member seen =>
    exact kept.load member fun _ path has =>
      kept.current memberId path (kept.row_current present before seen has)
  · exact kept

theorem Kept.memberByStudentId (kept : Kept world phase) (present : phase me ≠ .gone)
    (before : ∀ memberId path previous, phase me ≠ .updated memberId path previous) (studentId : String) :
    Kept (memberByStudentId me studentId world).2 phase := by
  unfold Source.Avatars.memberByStudentId
  split
  · exact kept
  · split
    · exact kept
    · exact kept.read present before

/-- What `db.get` answers has the previous path as it was committed at some time. -/
theorem Kept.getMember (kept : Kept world phase) (reading : (phase me).reading = true)
    (present : phase me ≠ .gone)
    (before : ∀ memberId path previous, phase me ≠ .updated memberId path previous) (memberId : Int) :
    Kept (getMember me memberId world).2 phase ∧
      ∀ member path, (getMember me memberId world).1 = .ok (some member) → member.avatarPath = some path →
        Past (getMember me memberId world).2 phase memberId path := by
  unfold Source.Avatars.getMember
  cases loaded : world.loaded me memberId with
  | some stored =>
    refine ⟨kept, fun member path found has => ?_⟩
    cases found
    exact kept.loaded me memberId stored path reading loaded has
  | none =>
    refine ⟨kept.read present before, fun member path found has => ?_⟩
    unfold World.read at found ⊢
    cases seen : world.members.row me memberId with
    | none =>
      rw [seen] at found
      cases found
    | some stored =>
      rw [seen] at found
      cases found
      have past := kept.current memberId path (kept.row_current present before seen has)
      exact past.still (fun _ member => member) rfl fun _ _ own => own

section Answers

variable {stmt : Stmt} {choice : Choice} {reply : Except Failure (Reply stmt)}
  {previous : Option String}

/-- Before the upload a session reads, and is given a name that was not used before. -/
theorem Kept.serving_answer (kept : Kept world phase) (now : phase me = .serving)
    (fresh : Fresh world me stmt choice) (succeeds : choice.fails = none)
    (allowed : Phase.serving.allow stmt)
    (done : Source.Avatars.answer me stmt choice world = some (reply, world')) :
    Kept world' (Function.update phase me (Phase.serving.next stmt reply)) := by
  have present : phase me ≠ .gone := by rw [now]; nofun
  have before (memberId : Int) (path : String) (previous : Option String) :
      phase me ≠ .updated memberId path previous := by rw [now]; nofun
  cases stmt with
  | memberByStudentId studentId =>
    have looked := kept.memberByStudentId present before studentId
    rw [show Source.Avatars.memberByStudentId me studentId world = (reply, world') from
      Option.some.inj done] at looked
    cases reply with
    | ok found =>
      rw [Phase.next, ← now, Function.update_eq_self]
      exact looked
    | error reason => exact looked.gone
  | makeDirectory =>
    cases done
    rw [Phase.next, ← now, Function.update_eq_self]
    exact kept
  | newFilename memberId suffix =>
    cases done
    have unused := of_decide_eq_true (fresh succeeds)
    refine kept.enter (fun _ member => List.mem_cons_of_mem _ member) ?_ nofun (fun _ => ?_) nofun nofun
      nofun (.inr (kept.undrafted present before))
    · intro path named
      cases named
      exact .inr ⟨unused, List.mem_cons_self⟩
    · rw [now]
      rfl
  | openFile _ | writeBytes _ _ | getMember _ | updateAvatar _ _ | commit | refresh _ | unlink _ =>
    exact allowed.elim

theorem Kept.named_answer (kept : Kept world phase) (now : phase me = .named path)
    (allowed : (Phase.named path).allow stmt)
    (done : Source.Avatars.answer me stmt choice world = some (reply, world')) :
    Kept world' (Function.update phase me ((Phase.named path).next stmt reply)) := by
  cases stmt with
  | openFile target =>
    obtain rfl : target = path := allowed
    cases done
    have own : (phase me).own = some target := by rw [now]; rfl
    have opened := kept.setOwn own (by rw [now]; rfl) (some { bytes := [], complete := false })
    exact opened.enter (fun _ member => member) (fun _ has => .inl (by rw [now]; exact has)) nofun
      (fun _ => by rw [now]; rfl) nofun nofun nofun
      (.inr (opened.undrafted (by rw [now]; nofun) (by rw [now]; nofun)))
  | memberByStudentId _ | makeDirectory | newFilename _ _ | writeBytes _ _ | getMember _
  | updateAvatar _ _ | commit | refresh _ | unlink _ => exact allowed.elim

/-- A write that stops short ends the session. -/
theorem Kept.opened_answer (kept : Kept world phase) (now : phase me = .opened path)
    (allowed : (Phase.opened path).allow stmt)
    (done : Source.Avatars.answer me stmt choice world = some (reply, world')) :
    Kept world' (Function.update phase me ((Phase.opened path).next stmt reply)) := by
  cases stmt with
  | writeBytes target bytes =>
    obtain rfl : target = path := allowed
    have own : (phase me).own = some target := by rw [now]; rfl
    have done : writeBytes target bytes choice.cutAfter world = (reply, world') := Option.some.inj done
    unfold writeBytes at done
    split at done
    · next length _ =>
      cases done
      have cut := kept.setOwn own (by rw [now]; rfl) (some { bytes := bytes.take length, complete := false })
      exact cut.gone
    · cases done
      have written : Kept (world.setFile target (some { bytes, complete := true })) phase :=
        kept.setFile _ (.inl ⟨_, rfl, rfl⟩)
      refine written.enter (fun _ member => member) (fun _ has => .inl (by rw [now]; exact has)) ?_
        (fun _ => by rw [now]; rfl) nofun nofun nofun
        (.inr (written.undrafted (by rw [now]; nofun) (by rw [now]; nofun)))
      intro path has _
      cases has
      exact ⟨_, World.setFile_self .., rfl⟩
  | memberByStudentId _ | makeDirectory | newFilename _ _ | openFile _ | getMember _
  | updateAvatar _ _ | commit | refresh _ | unlink _ => exact allowed.elim

theorem Kept.written_answer (kept : Kept world phase) (now : phase me = .written path)
    (allowed : (Phase.written path).allow stmt)
    (done : Source.Avatars.answer me stmt choice world = some (reply, world')) :
    Kept world' (Function.update phase me ((Phase.written path).next stmt reply)) := by
  have present : phase me ≠ .gone := by rw [now]; nofun
  have before (memberId : Int) (path : String) (previous : Option String) :
      phase me ≠ .updated memberId path previous := by rw [now]; nofun
  cases stmt with
  | getMember memberId =>
    obtain ⟨looked, past⟩ := kept.getMember (by rw [now]; rfl) present before memberId
    rw [show Source.Avatars.getMember me memberId world = (reply, world') from
      Option.some.inj done] at looked past
    cases reply with
    | error reason => exact looked.gone
    | ok found =>
      cases found with
      | none => exact looked.gone
      | some member =>
        refine looked.enter (fun _ member => member) (fun _ has => .inl (by rw [now]; exact has)) ?_
          nofun ?_ nofun nofun (.inr (looked.undrafted present before))
        · intro target own _
          exact looked.wrote me target (by rw [now]; exact own) (by rw [now]; rfl)
        · intro key target previous
          obtain ⟨path, has, same⟩ := Option.map_eq_some_iff.mp previous
          cases same
          exact past member target rfl has
  | memberByStudentId _ | makeDirectory | newFilename _ _ | openFile _ | writeBytes _ _
  | updateAvatar _ _ | commit | refresh _ | unlink _ => exact allowed.elim

theorem Kept.read_answer (kept : Kept world phase) (now : phase me = .read memberId path previous)
    (allowed : (Phase.read memberId path previous).allow stmt)
    (done : Source.Avatars.answer me stmt choice world = some (reply, world')) :
    Kept world' (Function.update phase me ((Phase.read memberId path previous).next stmt reply)) := by
  cases stmt with
  | updateAvatar target newPath =>
    obtain ⟨rfl, rfl⟩ := allowed
    obtain ⟨⟨hit, members⟩, updated, same⟩ := Option.map_eq_some_iff.mp done
    cases same
    have others (other : SessionId) (different : other ≠ me) := Function.update_of_ne different
      (Function.update (world.loaded me) target
        ((world.loaded me target).map fun member => { member with avatarPath := some newPath }))
        world.loaded
    rcases Table.updateRow_cases updated with ⟨rfl, rfl⟩ | ⟨rfl, free, member, -, -, rfl⟩
    · exact kept.gone.reload me (by rw [Function.update_self]; rfl) _ others
    · exact (kept.update now free).reload me (by rw [Function.update_self]; rfl) _ others
  | memberByStudentId _ | makeDirectory | newFilename _ _ | openFile _ | writeBytes _ _
  | getMember _ | commit | refresh _ | unlink _ => exact allowed.elim

theorem Kept.updated_answer (kept : Kept world phase) (now : phase me = .updated memberId path previous)
    (allowed : (Phase.updated memberId path previous).allow stmt)
    (done : Source.Avatars.answer me stmt choice world = some (reply, world')) :
    Kept world' (Function.update phase me ((Phase.updated memberId path previous).next stmt reply)) := by
  cases stmt with
  | commit =>
    cases done
    have committed := kept.commit now
    cases choice.replyLost with
    | false => exact committed
    | true =>
      have lost : Kept _ (Function.update _ me .gone) := committed.gone
      rw [Function.update_idem] at lost
      exact lost
  | memberByStudentId _ | makeDirectory | newFilename _ _ | openFile _ | writeBytes _ _ | getMember _
  | updateAvatar _ _ | refresh _ | unlink _ => exact allowed.elim

/-- What is unlinked is a path of the past that the commit has taken out of the table. -/
theorem Kept.committed_answer (kept : Kept world phase) (now : phase me = .committed memberId previous)
    (allowed : (Phase.committed memberId previous).allow stmt)
    (done : Source.Avatars.answer me stmt choice world = some (reply, world')) :
    Kept world' (Function.update phase me ((Phase.committed memberId previous).next stmt reply)) := by
  cases stmt with
  | refresh target =>
    cases done
    rw [Phase.next, ← now, Function.update_eq_self]
    exact kept.read (by rw [now]; nofun) (by rw [now]; nofun)
  | unlink target =>
    obtain rfl : previous = some target := allowed
    cases done
    rw [Phase.next, ← now, Function.update_eq_self]
    have past := kept.previous me memberId target (by rw [now]; rfl)
    refine kept.setFile none <| .inr ⟨fun key current => ?_, fun other has => absurd has (past.free other)⟩
    obtain rfl := past.only key current
    exact kept.retired me key target now current
  | memberByStudentId _ | makeDirectory | newFilename _ _ | openFile _ | writeBytes _ _ | getMember _
  | updateAvatar _ _ | commit => exact allowed.elim

/-- A statement that succeeds keeps the invariant, where its session stands at it. -/
theorem Kept.answer (kept : Kept world phase) (fresh : Fresh world me stmt choice)
    (succeeds : choice.fails = none) (allowed : (phase me).allow stmt)
    (done : Source.Avatars.answer me stmt choice world = some (reply, world')) :
    Kept world' (Function.update phase me ((phase me).next stmt reply)) := by
  cases now : phase me with
  | gone =>
    rw [now] at allowed
    exact absurd allowed (by simp [Phase.allow])
  | serving =>
    rw [now] at allowed
    exact kept.serving_answer now fresh succeeds allowed done
  | named path =>
    rw [now] at allowed
    exact kept.named_answer now allowed done
  | opened path =>
    rw [now] at allowed
    exact kept.opened_answer now allowed done
  | written path =>
    rw [now] at allowed
    exact kept.written_answer now allowed done
  | read memberId path previous =>
    rw [now] at allowed
    exact kept.read_answer now allowed done
  | updated memberId path previous =>
    rw [now] at allowed
    exact kept.updated_answer now allowed done
  | committed memberId previous =>
    rw [now] at allowed
    exact kept.committed_answer now allowed done

end Answers

theorem next_error (phase : Phase) (stmt : Stmt) (reason : Failure) :
    phase.next stmt (.error reason) = .gone := by
  cases phase <;> cases stmt <;> rfl

theorem kept_keeps : upload.Keeps machine Fresh Kept where
  exec world phase me stmt choice reply world' kept fresh allowed done := by
    rcases answering.exec_cases done with ⟨reason, -, rfl, rfl⟩ | ⟨succeeds, answered⟩
    · show Kept world' (Function.update phase me ((phase me).next stmt (.error reason)))
      rw [next_error]
      exact kept.gone
    · exact kept.answer fresh succeeds allowed answered
  known _ _ _ _ _ _ _ _ _ := trivial
  close _ _ _ kept := kept.leave
  crash _ _ _ kept := kept.leave
  outside _ _ change _ := nomatch change

/-! ## Runs -/

/-- Every session stands before its upload. -/
def waiting (requests : SessionId → Option Request) (me : SessionId) : Phase :=
  if (requests me).isSome then .serving else .gone

theorem waiting_idle (requests : SessionId → Option Request) (me : SessionId) :
    (waiting requests me).own = none ∧ (waiting requests me).previous = none ∧
      (∀ memberId previous, waiting requests me ≠ .committed memberId previous) ∧
      ∀ memberId path previous, waiting requests me ≠ .updated memberId path previous := by
  unfold waiting
  split <;> exact ⟨rfl, rfl, nofun, nofun⟩

theorem Settled.kept (settled : Settled world) (requests : SessionId → Option Request) :
    Kept world (waiting requests) := by
  have idle := waiting_idle requests
  constructor
  · exact settled.complete
  · intro memberId path current
    refine ⟨settled.used memberId path current, fun me own => ?_, fun other also => ?_⟩
    · rw [(idle me).1] at own
      cases own
    · exact settled.unshared other memberId path also current
  · intro me memberId member path _ loaded
    rw [settled.closed] at loaded
    cases loaded
  · intro me memberId path previous
    rw [(idle me).2.1] at previous
    cases previous
  · exact fun me memberId path committed => absurd committed ((idle me).2.2.1 memberId _)
  · intro me path own
    rw [(idle me).1] at own
    cases own
  · intro me other path own
    rw [(idle me).1] at own
    cases own
  · intro me path own
    rw [(idle me).1] at own
    cases own
  · intro memberId owner version drafted
    rw [settled.quiet] at drafted
    cases drafted
  · exact fun me memberId path previous updated => absurd updated ((idle me).2.2.2 memberId path previous)

/-- However uploads interleave, fail and crash, every avatar in a committed row names a complete file.
The file is written before its path is committed, and the old one is removed only after that. -/
theorem stored_avatars_exist (rules : AvatarRules) (initial : World) (settled : Settled initial)
    (requests : SessionId → Option Request) (actions : List (Action machine)) (after : Config machine Member)
    (reached : (start rules initial requests).run actions = some after)
    (fresh : (start rules initial requests).Meets Fresh actions) (memberId : Int) (member : Member)
    (path : String) (committed : after.world.members.committed memberId = some member)
    (stored : member.avatarPath = some path) :
    ∃ file, after.world.files path = some file ∧ file.complete = true := by
  have holds : upload.Holds Kept (start rules initial requests) := by
    refine ⟨waiting requests, settled.kept requests, fun me program opened => ?_, fun me closed => ?_⟩
    · obtain ⟨request, asked, rfl⟩ := Option.map_eq_some_iff.mp opened
      have serving : waiting requests me = .serving := by simp [waiting, asked]
      rw [serving]
      exact request_follows rules request
    · have nobody : requests me = none := by simpa [start] using closed
      simp [waiting, nobody]
  obtain ⟨phase, kept, -, -⟩ := kept_keeps.run holds fresh reached
  exact kept.complete memberId path ⟨member, committed, stored⟩

/-- A member with an avatar. -/
def withAvatar : World where
  members := .seeded [(1, { studentId := "s1", avatarPath := some "avatars/old.jpg" })]
  files path := if path = "avatars/old.jpg" then some { bytes := [0], complete := true } else none
  loaded _ _ := none
  used := ["avatars/old.jpg"]

theorem current_withAvatar (current : Current withAvatar memberId path) :
    memberId = 1 ∧ path = "avatars/old.jpg" := by
  obtain ⟨member, committed, has⟩ := current
  by_cases here : memberId = 1
  · subst here
    cases committed
    exact ⟨rfl, (Option.some.inj has).symm⟩
  · have absent : withAvatar.members.committed memberId = none := by
      simp [withAvatar, Table.seeded, Table.committed, Table.commit, Table.write, Table.empty, here,
        Slot.commit]
    rw [absent] at committed
    cases committed

theorem withAvatar_settled : Settled withAvatar where
  quiet := Table.seeded_quiet _
  closed _ _ := rfl
  complete memberId path current := by
    obtain ⟨-, rfl⟩ := current_withAvatar current
    exact ⟨{ bytes := [0], complete := true }, rfl, rfl⟩
  used memberId path current := by
    obtain ⟨-, rfl⟩ := current_withAvatar current
    exact List.mem_cons_self
  unshared memberId other path current also :=
    (current_withAvatar current).1.trans (current_withAvatar also).1.symm

def anyJpeg : AvatarRules where
  avatarMaxUploadBytes := 10
  toJpeg bytes := .ok bytes
  lower text := text

/-- The member uploads twice at once. -/
def twice (me : SessionId) : Option Request :=
  [Request.service 1 [1] none, .route "s1" [2] (some "me.jpeg")][me]?

/-- Both read the same previous path; the first removes it, and the second crashes after its commit. -/
def interleaved : List (Action machine) :=
  List.replicate 6 (.exec 0 { token := "aa" }) ++ List.replicate 6 (.exec 1 { token := "bb" }) ++
    List.replicate 3 (.exec 0 {}) ++ List.replicate 2 (.exec 1 {}) ++ [.crash 1]

/-- The second upload's file is there after all. -/
theorem stored_avatars_exist_twice : ∃ after member file,
    (start anyJpeg withAvatar twice).run interleaved = some after ∧
      after.world.members.committed 1 = some member ∧ member.avatarPath = some "avatars/member_1_0_bb.jpeg" ∧
      after.world.files "avatars/member_1_0_bb.jpeg" = some file ∧ file.complete = true := by
  have ran :
      ((start anyJpeg withAvatar twice).run interleaved).bind (fun after => after.world.members.committed 1) =
      some { studentId := "s1", avatarPath := some "avatars/member_1_0_bb.jpeg" } := by
    decide +kernel
  obtain ⟨after, reached, committed⟩ := Option.bind_eq_some_iff.mp ran
  obtain ⟨file, found, complete⟩ := stored_avatars_exist anyJpeg withAvatar withAvatar_settled twice
    interleaved after
    reached (Config.meets_of_checks (by decide +kernel)) 1 _ _ committed rfl
  exact ⟨after, _, file, reached, committed, rfl, found, complete⟩

end SogeconApp.Guarantees.StoredAvatars
