import SogeconApp.Guarantees.Board.Policy

/-!
# Every route of the board follows the policy
-/

namespace SogeconApp.Guarantees.Board

open Library Program Policy Source.Board
open SogeconApp.Source.Auth (CurrentUser MemberRow Session currentUser getUserSession hasPermission)
open SogeconApp.Source.PostWrites (PostCreate PostOwnerUpdate PostUpdate)
open SogeconApp.Source.SignIn (Rules refreshed)
open SessionAuthority (result result_bind result_tryCatch)
open SignIn (Judges SameStudent currentUser_row rowsOf requireAdmin_judges requireMember_judges
  requirePermission_judges)

variable {rules : Rules} {known : Known} {session after : Session} {α β : Type}

/-! ## Checks -/

/-- A value that speaks for somebody is what the check makes of the current user. -/
def Reads (rules : Rules) (check : List MemberRow → Source.Auth.Handler α) (speaks : α → Prop)
    (accepts : CurrentUser → α → Prop) : Prop :=
  ∀ members session outcome after, result (check members) session = (outcome, after) →
    ∃ found, result (currentUser rules.toSessionRules members) session = (found, after) ∧
      ∀ value, outcome = .ok value → speaks value → ∃ user, found = .ok (some user) ∧ accepts user value

/-- A check that lets nobody but a current user pass is one whose every value speaks for that user. -/
theorem reads_of_judges {check : List MemberRow → Source.Auth.Handler α} {accepts : CurrentUser → α → Prop}
    (judges : Judges rules check accepts) : Reads rules check (fun _ => True) accepts := by
  intro members session outcome after ran
  obtain ⟨found, current, accepted⟩ := judges members session outcome after ran
  exact ⟨found, current, fun value same _ => accepted value same⟩

/-- A check that answers False where there is nobody. -/
theorem reads_truth {check : List MemberRow → Source.Auth.Handler Bool} (judge : CurrentUser → Bool)
    (same : ∀ members, check members = Source.Auth.falseOnUnauthorized
      (currentUser rules.toSessionRules members >>= fun found =>
      match found with
      | none => return false
      | some user => return judge user)) :
    Reads rules check (fun value => value = true) fun user _ => judge user = true := by
  intro members session outcome after ran
  rw [same, Source.Auth.falseOnUnauthorized, result_tryCatch, result_bind] at ran
  cases current : result (currentUser rules.toSessionRules members) session with
  | mk found left =>
    rw [current] at ran
    cases found with
    | error failure =>
      dsimp only at ran
      split at ran
      · cases ran
        exact ⟨_, rfl, by intro value same speaks; cases same; cases speaks⟩
      · cases ran
        exact ⟨_, rfl, by simp⟩
    | ok found =>
      cases found with
      | none =>
        cases ran
        exact ⟨_, rfl, by intro value same speaks; cases same; cases speaks⟩
      | some user =>
        cases ran
        exact ⟨_, rfl, by intro value same speaks; cases same; exact ⟨user, rfl, speaks⟩⟩

theorem isAdmin_reads : Reads rules (Source.Auth.isAdmin rules.toSessionRules)
    (fun value => value = true) fun user _ =>
    decide ("admin" ∈ user.roles ∨ "super_admin" ∈ user.roles) = true :=
  reads_truth _ fun _ => rfl

theorem hasAnyPermission_reads (permission : String) :
    Reads rules (Source.Auth.hasAnyPermission rules.toSessionRules [permission]) (fun value => value = true)
      fun user _ => ([permission].any fun permission =>
        hasPermission rules.toTextRules user.roles permission false) = true :=
  reads_truth _ fun _ => rfl

/-- Whoever the session names was presented. -/
def Held (rules : Rules) (known : Known) (session : Session) : Prop :=
  ∀ user, getUserSession rules.toSessionRules session = .ok (some user) → Presented rules known user.studentId

theorem Held.more {later : Known} (sub : known ⊆ later) (held : Held rules known session) :
    Held rules later session := by
  intro user found
  obtain ⟨presented, claimed, received, seen, same⟩ := held user found
  exact ⟨presented, claimed, sub received, seen, same⟩

theorem Held.left (held : Held rules known session) (same : SameStudent rules session after) :
    Held rules known after := by
  intro user found
  obtain ⟨claimed, seen, named⟩ := same user found
  rw [← named]
  exact held claimed seen

/-- The user for whom a check speaks, and that the session names. -/
def Speaks (rules : Rules) (known : Known) (session : Session) (accepts : CurrentUser → Prop) : Prop :=
  ∃ user, Acting rules known user ∧ accepts user ∧
    ∃ claimed, getUserSession rules.toSessionRules session = .ok (some claimed) ∧
      claimed.studentId = user.studentId

theorem Speaks.more {later : Known} {accepts : CurrentUser → Prop} (sub : known ⊆ later)
    (speaks : Speaks rules known session accepts) : Speaks rules later session accepts := by
  obtain ⟨user, acting, accepted⟩ := speaks
  exact ⟨user, acting.more sub, accepted⟩

/-- The row of the student whom the session names is read, if it names one. -/
theorem sessionRow_grows (session : Session) :
    (routes rules).Grows known (sessionRow rules session) fun row phase =>
      ∀ studentId stored, row = some (studentId, stored) → ⟨.member studentId, some stored⟩ ∈ phase := by
  unfold sessionRow
  split
  · next user seen =>
    refine Grows.step trivial fun found => .ret fun studentId stored same => ?_
    obtain ⟨row, rfl, named⟩ := Option.map_eq_some_iff.mp same
    cases named
    simp
  · exact .ret (by simp)

/-- After a check the request knows the session and the row that the value of the check rests on. -/
theorem checked_grows {check : List MemberRow → Source.Auth.Handler α} {speaks : α → Prop}
    {accepts : CurrentUser → α → Prop} (reads : Reads rules check speaks accepts)
    (held : Held rules known session) :
    (routes rules).Grows known (checked rules check session) fun found phase =>
      SameStudent rules session found.2 ∧ Held rules phase found.2 ∧ ∀ value, found.1 = .ok value → speaks value →
        Speaks rules phase session (accepts · value) := by
  unfold checked
  refine (sessionRow_grows session).bind fun row phase more read => ?_
  unfold Source.SignIn.runCheck
  cases judged : result (check (rowsOf rules row)) session with
  | mk outcome left =>
    have ran : ((check (row.toList.map fun found =>
      Source.SignIn.memberRow rules found.1 found.2)).run).run session =
        (outcome, left) := judged
    rw [ran]
    obtain ⟨found, current, accepted⟩ := reads _ _ _ _ judged
    obtain ⟨student, made⟩ := currentUser_row current
    refine .ret ⟨student, (held.more more).left student, fun value returned speaks_ => ?_⟩
    cases outcome with
    | error failure => cases returned
    | ok value' =>
      cases returned
      obtain ⟨user, rfl, accepts_⟩ := accepted _ rfl speaks_
      obtain ⟨⟨claimed, seen, claims⟩, ⟨member, stored, active, same⟩, -⟩ := made user rfl
      have presented := (held.more more) claimed seen
      rw [claims] at presented
      exact ⟨user, ⟨presented, member, read _ _ stored, active, same⟩, accepts_, claimed, seen, claims⟩

/-- A check that is required to pass speaks for a user of the session, or ends the request. -/
theorem required_grows {check : List MemberRow → Source.Auth.Handler α} {accepts : CurrentUser → α → Prop}
    (judges : Judges rules check accepts) (held : Held rules known session) :
    (routes rules).Grows known (required rules check session) fun value phase =>
      Speaks rules phase session (accepts · value) := by
  unfold required
  refine (checked_grows (reads_of_judges judges) held).bind fun found phase _ spoken => ?_
  obtain ⟨outcome, after⟩ := found
  cases outcome with
  | error reason => exact .raise
  | ok value => exact .ret (spoken.2.2 value rfl trivial)

/-! ## Statements of the posts -/

@[simp] theorem lift_pure (value : α) : lift (pure value : Source.PostWrites.Handler α) = pure value := rfl

@[simp] theorem lift_raise (reason : Source.PostWrites.Failure) :
    lift (raise reason : Source.PostWrites.Handler α) = (raise (Failure.raised reason) : Handler α) := rfl

@[simp] theorem lift_ask (stmt : Source.PostWrites.Stmt) :
    lift (Source.PostWrites.ask stmt) = ask (.post stmt) := by
  simp only [Source.PostWrites.ask, ask, issue, lift]
  congr 1
  funext reply
  cases reply <;> rfl

@[simp] theorem lift_bind (program : Source.PostWrites.Handler α) (next : α → Source.PostWrites.Handler β) :
    lift (program >>= next) = lift program >>= fun value => lift (next value) := by
  simp only [bind_eq]
  induction program with
  | ret value => rfl
  | raise reason => rfl
  | exec stmt next_ ih =>
    simp only [Program.bind, lift]
    congr 1
    funext reply
    cases reply with
    | ok answer => exact ih (.ok answer)
    | error reason => rfl

theorem lift_step {stmt : Source.PostWrites.Stmt}
    {next : Source.PostWrites.Reply stmt → Source.PostWrites.Handler α}
    {Q : α → Known → Prop} (allowed : May rules known (.post stmt))
    (then_ : ∀ reply, (routes rules).Grows (known ++ [⟨.post stmt, reply⟩]) (lift (next reply)) Q) :
    (routes rules).Grows known (lift (Source.PostWrites.ask stmt >>= next)) Q := by
  rw [lift_bind, lift_ask]
  exact Grows.step allowed then_

theorem lift_bind_grows {program : Source.PostWrites.Handler β} {next : β → Source.PostWrites.Handler α}
    {middle : β → Known → Prop} {Q : α → Known → Prop} (first : (routes rules).Grows known (lift program) middle)
    (then_ : ∀ value phase, known ⊆ phase → middle value phase →
      (routes rules).Grows phase (lift (next value)) Q) :
    (routes rules).Grows known (lift (program >>= next)) Q := by
  rw [lift_bind]
  exact first.bind then_

/-- The post that is returned is the one at hand or one that was read. -/
theorem getPost_grows (held : Option Source.Posts.Post) (postId : Int) :
    (routes rules).Grows known (lift (Source.PostWrites.getPost held postId)) fun post phase =>
      ∃ row, ⟨.post (.getPost postId), some row⟩ ∈ phase ∧ post = held.getD row := by
  unfold Source.PostWrites.getPost
  refine lift_step trivial fun found => ?_
  cases found with
  | none => exact .raise
  | some row => exact .ret ⟨row, by simp, rfl⟩

theorem getBoardPost_grows (postId : Int) :
    (routes rules).Grows known (lift (Source.PostWrites.getBoardPost postId)) fun post phase =>
      ⟨.post (.getBoardPost postId), some post⟩ ∈ phase := by
  unfold Source.PostWrites.getBoardPost
  refine lift_step trivial fun found => ?_
  cases found with
  | none => exact .raise
  | some row => exact .ret (by simp)

theorem memberByStudentId_grows (studentId : String) :
    (routes rules).Grows known (lift (Source.PostWrites.memberByStudentId studentId)) fun id phase =>
      ⟨.post (.memberByStudentId studentId), some id⟩ ∈ phase := by
  unfold Source.PostWrites.memberByStudentId
  refine lift_step trivial fun found => ?_
  cases found with
  | none => exact .raise
  | some id => exact .ret (by simp)

/-- An insert that is allowed, its commit and the refresh. -/
theorem createPost_grows {payload : PostCreate} (may : MayInsert rules known payload) :
    (routes rules).Grows known (lift (Source.PostWrites.createPost payload)) fun _ _ => True := by
  unfold Source.PostWrites.createPost
  refine lift_step may fun _ => lift_step trivial fun _ => ?_
  rw [lift_ask]
  exact .ask trivial fun _ => trivial

/-- An update that sets what may be set. -/
theorem updatePost_grows {held : Option Source.Posts.Post} {postId : Int} {payload : PostUpdate}
    (may : ∀ post later, known ⊆ later → (∃ row, post = held.getD row) →
      MayFlush rules later postId (Source.PostWrites.loadedPost post)
        ((Source.PostWrites.loadedPost post).set payload)) :
    (routes rules).Grows known (lift (Source.PostWrites.updatePost held postId payload)) fun _ _ => True := by
  unfold Source.PostWrites.updatePost
  refine lift_bind_grows (getPost_grows held postId) fun post phase more found => ?_
  obtain ⟨row, -, same⟩ := found
  have saved : (routes rules).Grows phase (lift (Source.PostWrites.save postId (Source.PostWrites.loadedPost post)
      ((Source.PostWrites.loadedPost post).set payload))) fun _ _ => True := by
    unfold Source.PostWrites.save
    split
    · exact .ret trivial
    · rw [lift_ask]
      exact .ask (may post phase more ⟨row, same⟩) fun _ => trivial
  refine lift_bind_grows saved fun _ _ _ _ => lift_step trivial fun _ => ?_
  rw [lift_ask]
  exact .ask trivial fun _ => trivial

/-! ## Members -/

/-- What `require_member` returns is a member with the id. -/
theorem speaks_member {member : Source.Auth.CurrentMember} {id : Int} (named : member.id = some id)
    (speaks : Speaks rules known session fun user => member = { studentId := user.studentId, id := user.id } ∧
      ("member" ∈ user.roles ∨ "admin" ∈ user.roles ∨ "super_admin" ∈ user.roles)) : Member rules known id := by
  obtain ⟨user, acting, ⟨rfl, listed⟩, -⟩ := speaks
  exact ⟨user, acting, listed, .inl named⟩

/-- A member's post is inserted for the member, on the board, neither pinned nor published. -/
theorem createMemberPost_grows {payload : PostCreate} {member : Source.Auth.CurrentMember}
    (speaks : Speaks rules known session fun user => member = { studentId := user.studentId, id := user.id } ∧
      ("member" ∈ user.roles ∨ "admin" ∈ user.roles ∨ "super_admin" ∈ user.roles)) :
    (routes rules).Grows known (lift (Source.PostWrites.createMemberPost payload member.studentId member.id))
      fun _ _ => True := by
  unfold Source.PostWrites.createMemberPost
  have onBoard : (routes rules).Grows known
    (lift (Source.PostWrites.requireBoardCategory payload.category)) fun _ phase =>
      phase = known ∧ payload.category.text ∈ Source.Posts.boardPostCategories := by
    unfold Source.PostWrites.requireBoardCategory
    split
    · next listed => exact .ret ⟨rfl, listed⟩
    · exact .raise
  refine lift_bind_grows onBoard fun _ phase _ category => ?_
  obtain ⟨rfl, category⟩ := category
  have created (id : Int) (later : Known) (member : Member rules later id) : (routes rules).Grows later
      (lift (Source.PostWrites.createPost
        { payload with authorId := some id, pinned := false, publishedAt := none }))
      fun _ _ => True := createPost_grows (.inr ⟨⟨id, member, rfl⟩, category, rfl, rfl⟩)
  dsimp only
  split
  · next id named => exact created id phase (speaks_member named speaks)
  · refine lift_bind_grows (memberByStudentId_grows member.studentId) fun id later more found => ?_
    obtain ⟨user, acting, ⟨rfl, listed⟩, -⟩ := speaks
    exact created id later ⟨user, acting.more more, listed, .inr found⟩

/-- The route of the members inserts a post only after it has checked the member. -/
theorem createMemberPostForRequest_grows (payload : PostCreate) (held : Held rules known session) :
    (routes rules).Grows known (createMemberPostForRequest rules payload session) fun _ _ => True := by
  unfold createMemberPostForRequest
  refine (checked_grows (reads_of_judges requireMember_judges) held).bind fun found phase _ spoken => ?_
  obtain ⟨outcome, after⟩ := found
  cases outcome with
  | error reason => cases reason <;> exact .raise
  | ok member =>
    have speaks := spoken.2.2 member rfl trivial
    exact Grows.step trivial fun _ => createMemberPost_grows (speaks.more (List.subset_append_left ..))

/-! ## Posts -/

/-- Both checks speak for the student whom the session names. -/
theorem createPost_route_grows (payload : PostCreate) (held : Held rules known session) :
    (routes rules).Grows known (createPost rules payload session) fun _ _ => True := by
  unfold createPost
  refine (checked_grows (reads_of_judges requireAdmin_judges) held).bind fun found phase _ spoken => ?_
  obtain ⟨outcome, after⟩ := found
  obtain ⟨same, held, administrates⟩ := spoken
  cases outcome with
  | error reason =>
    dsimp only
    split
    · exact createMemberPostForRequest_grows payload held
    · exact .raise
  | ok admin =>
    obtain ⟨user, acting, ⟨-, -, named⟩, claimed, seen, claims⟩ := administrates admin rfl trivial
    refine (checked_grows (hasAnyPermission_reads "admin_posts") held).bind fun found later more spoken => ?_
    obtain ⟨outcome, left⟩ := found
    obtain ⟨-, held, permits⟩ := spoken
    cases outcome with
    | error reason => exact .raise
    | ok permitted =>
      cases permitted with
      | false => exact createMemberPostForRequest_grows payload held
      | true =>
        obtain ⟨holder, acts, permission, other, found, names⟩ := permits true rfl rfl
        have one : holder.studentId = admin.studentId := by
          obtain ⟨before, seen', same'⟩ := same other found
          rw [seen] at seen'
          cases seen'
          rw [← names, ← same', claims, named]
        have manager : Manager rules later admin.studentId := ⟨holder, acts, one, by simpa using permission⟩
        unfold Source.PostWrites.createAdminPost
        refine lift_bind_grows (memberByStudentId_grows admin.studentId) fun id last kept read => ?_
        exact createPost_grows (.inl ⟨admin.studentId, id, manager.more kept, rfl, read⟩)

/-- `require_permission("admin_posts")` lets managers through. -/
theorem requirePostAdmin_grows (held : Held rules known session) :
    (routes rules).Grows known (required rules (requirePostAdmin rules) session) fun user phase =>
      Manager rules phase user.studentId := by
  refine (required_grows (requirePermission_judges "admin_posts") held).weaken fun actor phase _ spoken => ?_
  obtain ⟨user, acting, ⟨rfl, permitted⟩, -⟩ := spoken
  exact ⟨actor, acting, rfl, permitted⟩

theorem updatePost_route_grows (postId : Int) (payload : PostUpdate) (held : Held rules known session) :
    (routes rules).Grows known (updatePost rules postId payload session) fun _ _ => True := by
  unfold updatePost
  refine (requirePostAdmin_grows held).bind fun user phase _ manager => ?_
  unfold Source.PostWrites.updateAdminPost
  split
  · exact updatePost_grows fun _ _ more _ => .inl ⟨user.studentId, manager.more more⟩
  · refine lift_bind_grows (getPost_grows none postId) fun current later more _ => ?_
    split
    · exact .raise
    · exact updatePost_grows fun _ _ still _ => .inl ⟨user.studentId, (manager.more more).more still⟩

/-- The comments that were loaded, and then the post. -/
theorem removePost_grows (postId : Int) (may : MayRemovePost rules known postId) :
    (routes rules).Grows known (removePost postId) fun _ _ => True := by
  unfold removePost
  refine (getPost_grows none postId).bind fun _ phase more _ => Grows.step trivial fun comments => ?_
  have each : (routes rules).Grows (phase ++ [⟨.commentsOf postId, comments⟩])
      (forEach (fun commentId => ask (.deleteComment commentId)) comments) fun _ _ => True := by
    refine Grows.forEach fun commentId member later kept => .ask ?_ fun _ => trivial
    have goes : WithPost rules (phase ++ [⟨.commentsOf postId, comments⟩]) commentId :=
      ⟨postId, comments, by simp, member, (may.more more).more (List.subset_append_left ..)⟩
    exact .inr (goes.more kept)
  refine each.bind fun _ later kept _ => Grows.step ?_ fun _ => .ask trivial fun _ => trivial
  exact ((may.more more).more (List.subset_append_left ..)).more kept

/-- The administration's removal takes the post and its comments only after the permission was checked.
-/
theorem deletePost_route_grows (postId : Int) (held : Held rules known session) :
    (routes rules).Grows known (deletePost rules postId session) fun _ _ => True := by
  unfold deletePost
  exact (requirePostAdmin_grows held).bind fun user _ _ manager =>
    removePost_grows postId (.inl ⟨user.studentId, manager⟩)

/-- A view is added only to a post that was read and found public. -/
theorem getPost_route_grows (postId : Int) (held : Held rules known session) :
    (routes rules).Grows known (getPost rules postId session) fun _ _ => True := by
  unfold getPost
  refine (getPost_grows none postId).bind fun post phase more found => Grows.step trivial fun now => ?_
  obtain ⟨row, read, rfl⟩ := found
  split
  · exact .raise
  · next visible =>
    have stillHeld := (held.more more).more (List.subset_append_left phase [⟨.now, now⟩])
    refine (checked_grows isAdmin_reads stillHeld).bind fun found later kept _ => ?_
    obtain ⟨outcome, after⟩ := found
    cases outcome with
    | error reason => exact .raise
    | ok admin =>
      cases admin with
      | true => exact .ret trivial
      | false =>
        refine Grows.step ⟨post, now, kept (by simp [read]), kept (by simp), by simpa using visible⟩ fun _ =>
          Grows.step trivial fun _ => .ask trivial fun _ => trivial

/-! ## Posts of the board -/

theorem requireMember_grows (held : Held rules known session) :
    (routes rules).Grows known (required rules (Source.Auth.requireMember rules.toSessionRules) session)
      fun member phase => ∀ id, member.id = some id → Member rules phase id :=
  (required_grows requireMember_judges held).weaken fun _ _ _ spoken _ named => speaks_member named spoken

theorem memberId_grows (member : Source.Auth.CurrentMember) :
    (routes rules).Grows known (memberId member) fun id _ => member.id = some id := by
  unfold memberId
  split
  · exact .raise
  · next named => exact .ret named

/-- Who passes is the author of the post that was found on the board. -/
theorem requireOwner_grows {post : Source.Posts.Post} {postId id : Int} (member : Member rules known id)
    (found : ⟨.post (.getBoardPost postId), some post⟩ ∈ known) :
    (routes rules).Grows known (lift (Source.PostWrites.requireMemberBoardOwner post id)) fun _ phase =>
      Owner rules phase postId := by
  unfold Source.PostWrites.requireMemberBoardOwner
  split
  · exact .raise
  · next own =>
    obtain rfl := not_not.mp own
    exact .ret ⟨post, found, member⟩

/-- The owner's update is flushed only after the post was found and its author checked. -/
theorem updateBoardPost_grows (postId : Int) (payload : PostOwnerUpdate) (held : Held rules known session) :
    (routes rules).Grows known (updateBoardPost rules postId payload session) fun _ _ => True := by
  unfold updateBoardPost
  refine (requireMember_grows held).bind fun current phase _ member => ?_
  refine (memberId_grows current).bind fun id later more named => ?_
  unfold Source.PostWrites.updateMemberPost
  refine lift_bind_grows (getBoardPost_grows postId) fun post third kept found => ?_
  refine lift_bind_grows (requireOwner_grows (((member id named).more more).more kept) found)
    fun _ last _ owner => ?_
  exact updatePost_grows fun _ _ still _ => .inr ⟨owner.more still, rfl, rfl, rfl⟩

/-- The owner's removal takes the post and its comments only after the same checks. -/
theorem deleteBoardPost_grows (postId : Int) (held : Held rules known session) :
    (routes rules).Grows known (deleteBoardPost rules postId session) fun _ _ => True := by
  unfold deleteBoardPost
  refine (requireMember_grows held).bind fun current phase _ member => ?_
  refine (memberId_grows current).bind fun id later more named => ?_
  refine (getBoardPost_grows postId).bind fun post third kept found => ?_
  refine (requireOwner_grows (((member id named).more more).more kept) found).bind fun _ last _ owner => ?_
  exact removePost_grows postId (.inr owner)

/-! ## Comments -/

theorem createComment_grows (payload : CommentCreate) (held : Held rules known session) :
    (routes rules).Grows known (createComment rules payload session) fun _ _ => True := by
  unfold createComment
  refine (required_grows requireMember_judges held).bind fun member phase _ spoken => ?_
  obtain ⟨user, acting, ⟨rfl, listed⟩, -⟩ := spoken
  unfold createCommentByStudentId
  refine (memberByStudentId_grows user.studentId).bind fun id later more read => ?_
  have author : Member rules later id := ⟨user, acting.more more, listed, .inr read⟩
  exact Grows.step author fun _ => Grows.step trivial fun _ => .ask trivial fun _ => trivial

/-- A comment is removed only after it was found, by an administrator or its author. -/
theorem removeComment_grows {commentId requesterId : Int} {isAdmin : Bool}
    (reason : if isAdmin then Administrator rules known else Member rules known requesterId) :
    (routes rules).Grows known (removeComment commentId requesterId isAdmin) fun _ _ => True := by
  unfold removeComment
  refine Grows.step trivial fun found => ?_
  cases found with
  | none => exact .raise
  | some comment =>
    have here : ⟨.getComment commentId, some comment⟩ ∈ known ++
      [⟨.getComment commentId, some comment⟩] := by simp
    have sub : known ⊆ known ++ [⟨.getComment commentId, some comment⟩] := List.subset_append_left ..
    cases isAdmin with
    | true =>
      have may : MayRemoveComment rules _ commentId := ⟨comment, here, .inl (Administrator.more sub reason)⟩
      exact Grows.step (.inl may) fun _ => .ask trivial fun _ => trivial
    | false =>
      dsimp only
      split
      · cases ‹false = true›
      · split
        · exact .raise
        · next own =>
          obtain rfl := not_not.mp own
          have may : MayRemoveComment rules _ commentId := ⟨comment, here, .inr (Member.more sub reason)⟩
          exact Grows.step (.inl may) fun _ => .ask trivial fun _ => trivial

/-- The route asks first whether the session is an administrator's, and for a member's otherwise. -/
theorem deleteComment_grows (commentId : Int) (held : Held rules known session) :
    (routes rules).Grows known (deleteComment rules commentId session) fun _ _ => True := by
  unfold deleteComment
  refine (checked_grows (reads_of_judges requireAdmin_judges) held).bind fun found phase _ spoken => ?_
  obtain ⟨outcome, after⟩ := found
  cases outcome with
  | ok admin =>
    obtain ⟨user, acting, ⟨listed, -⟩, -⟩ := spoken.2.2 admin rfl trivial
    exact removeComment_grows ⟨user, acting, listed⟩
  | error reason =>
    dsimp only
    split
    · refine (requireMember_grows spoken.2.1).bind fun current later _ member => ?_
      split
      · exact .raise
      · next id named => exact removeComment_grows (member id named)
    · exact .raise

/-! ## Requests -/

/-- Every route issues only what the policy allows it, given what it has read by then. -/
theorem endpoint_grows (request : Request) (held : Held rules known session) :
    (routes rules).Grows known (request.endpoint rules session) fun _ _ => True := by
  cases request with
  | createPost payload => exact createPost_route_grows payload held
  | updatePost postId payload => exact updatePost_route_grows postId payload held
  | deletePost postId => exact deletePost_route_grows postId held
  | getPost postId => exact getPost_route_grows postId held
  | updateBoardPost postId payload => exact updateBoardPost_grows postId payload held
  | deleteBoardPost postId => exact deleteBoardPost_grows postId held
  | createComment payload => exact createComment_grows payload held
  | deleteComment commentId => exact deleteComment_grows commentId held

theorem request_follows (request : Request) : (routes rules).protocol.Follows [] (request.program rules) := by
  have grows : (routes rules).Grows [] (request.program rules) fun _ _ => True :=
    Grows.step trivial fun session => endpoint_grows request fun user found =>
      ⟨session, user, by simp, found, rfl⟩
  exact grows.follows

end SogeconApp.Guarantees.Board
