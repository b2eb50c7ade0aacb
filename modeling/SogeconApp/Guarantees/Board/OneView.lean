import SogeconApp.Library.Exchanged
import SogeconApp.Source.Board

/-!
# A request counts at most one view

Only the reading of one post adds to a view count, and it does so once, after its last check.
-/

namespace SogeconApp.Guarantees.Board

open Library Program Policy Source.Board
open SogeconApp.Source.Auth (MemberRow Session)
open SogeconApp.Source.PostWrites (PostCreate PostOwnerUpdate PostUpdate)
open SogeconApp.Source.SignIn (Rules)

variable {rules : Rules} {α : Type}

def isView : Stmt → Bool
  | .incrementView _ => true
  | _ => false

/-- The program adds to no view count. -/
abbrev NoView (program : Handler α) : Prop := Within (fun stmt => isView stmt = false) program

/-- The services and the repository of the posts count no view. -/
theorem lift_noView (program : Source.PostWrites.Handler α) : NoView (lift program) := by
  unfold NoView Within
  induction program with
  | ret value => trivial
  | raise reason => trivial
  | exec stmt next ih =>
    rw [lift]
    refine ⟨rfl, fun reply _ _ => ?_⟩
    cases reply with
    | ok answer => exact ih (.ok answer)
    | error reason => trivial

theorem checked_noView (check : List MemberRow → Source.Auth.Handler α) (session : Session) :
    NoView (checked rules check session) := by
  have row : NoView (sessionRow rules session) := by
    unfold sessionRow
    split
    · exact Within.bind (.ask rfl) fun _ => .ret
    · exact .ret
  exact Within.bind row fun _ => .ret

theorem required_noView (check : List MemberRow → Source.Auth.Handler α) (session : Session) :
    NoView (required rules check session) := by
  refine (checked_noView check session).bind fun found => ?_
  obtain ⟨outcome, after⟩ := found
  cases outcome with
  | ok value => exact .ret
  | error reason => exact .raise

/-! ## Routes -/

theorem createMemberPost_noView (payload : PostCreate) (session : Session) :
    NoView (createMemberPostForRequest rules payload session) := by
  refine (checked_noView _ session).bind fun found => ?_
  obtain ⟨outcome, after⟩ := found
  cases outcome with
  | ok member => exact Within.bind (.ask rfl) fun _ => lift_noView _
  | error reason =>
    cases reason with
    | http statusCode detail => exact .raise
    | raised reason => exact .raise

theorem createPost_noView (payload : PostCreate) (session : Session) :
    NoView (createPost rules payload session) := by
  refine (checked_noView _ session).bind fun found => ?_
  obtain ⟨outcome, after⟩ := found
  cases outcome with
  | ok admin =>
    refine (checked_noView _ after).bind fun held => ?_
    obtain ⟨may, left⟩ := held
    rcases may with reason | _ | _
    · exact .raise
    · exact createMemberPost_noView payload left
    · exact lift_noView _
  | error reason =>
    dsimp only
    split
    · exact createMemberPost_noView payload after
    · exact .raise

theorem removePost_noView (postId : Int) : NoView (removePost postId) := by
  have each : ∀ commentId, NoView (ask (.deleteComment commentId)) := fun _ => .ask rfl
  refine (lift_noView _).bind fun _ => Within.bind (.ask rfl) fun comments => ?_
  refine Within.bind (Within.forEach each comments) fun _ => ?_
  exact Within.bind (.ask rfl) fun _ => .ask rfl

theorem removeComment_noView (commentId requesterId : Int) (isAdmin : Bool) :
    NoView (removeComment commentId requesterId isAdmin) := by
  refine Within.bind (.ask rfl) fun found => ?_
  cases found with
  | none => exact .raise
  | some comment =>
    have removes : NoView (do ask (.deleteComment commentId); ask (.post .commit)) :=
      Within.bind (.ask rfl) fun _ => .ask rfl
    dsimp only
    split
    · exact removes
    · split
      · exact .raise
      · exact removes

theorem deleteComment_noView (commentId : Int) (session : Session) :
    NoView (deleteComment rules commentId session) := by
  refine (checked_noView _ session).bind fun found => ?_
  obtain ⟨outcome, after⟩ := found
  cases outcome with
  | ok admin => exact removeComment_noView commentId 0 true
  | error reason =>
    dsimp only
    split
    · refine (required_noView _ after).bind fun member => ?_
      split
      · exact .raise
      · exact removeComment_noView _ _ _
    · exact .raise

theorem memberId_noView (member : Source.Auth.CurrentMember) : NoView (memberId member) := by
  unfold memberId
  split
  · exact .raise
  · exact .ret

/-! ## The one view -/

/-- What a program without views leaves is there for what follows it. -/
theorem noView_then {β : Type} {first : Handler β} {next : β → Handler α} (none_ : NoView first)
    (then_ : ∀ value, (Protocol.budget isView).Follows 1 (next value)) :
    (Protocol.budget isView).Follows 1 (first >>= next) := by
  refine Protocol.Through.bind (Protocol.through_budget none_ 1) fun value left same => ?_
  subst same
  exact Ensures.weaken (then_ value) (fun _ _ _ => trivial) fun _ _ _ => trivial

/-- A program that counts no view keeps to a budget of one view. -/
theorem noView_follows {program : Handler α} (none_ : NoView program) :
    (Protocol.budget isView).Follows 1 program :=
  (Protocol.through_budget none_ 1).follows

/-- The reading of a post counts a view once, and only the commit and a refresh are left then. -/
theorem getPost_follows (postId : Int) (session : Session) :
    (Protocol.budget isView).Follows 1 (getPost rules postId session) := by
  refine noView_then (lift_noView _) fun post => noView_then (.ask rfl) fun now => ?_
  split
  · exact noView_follows .raise
  · refine noView_then (checked_noView _ session) fun found => ?_
    obtain ⟨outcome, after⟩ := found
    rcases outcome with reason | _ | _
    · exact noView_follows .raise
    · have rest : NoView (do ask (.post .commit); ask (.post .refresh)) :=
        Within.bind (.ask rfl) fun _ => .ask rfl
      exact (Protocol.Through.step (fun _ => Nat.one_pos) fun _ _ => Protocol.through_budget rest 0).follows
    · exact noView_follows .ret

/-- Every route keeps to the budget of one view. -/
theorem endpoint_follows (request : Request) (session : Session) :
    (Protocol.budget isView).Follows 1 (request.endpoint rules session) := by
  cases request with
  | getPost postId => exact getPost_follows postId session
  | createPost payload => exact noView_follows (createPost_noView payload session)
  | updatePost postId payload => exact noView_follows ((required_noView _ session).bind fun _ => lift_noView _)
  | deletePost postId => exact noView_follows ((required_noView _ session).bind fun _ => removePost_noView postId)
  | updateBoardPost postId payload =>
    exact noView_follows ((required_noView _ session).bind fun member => (memberId_noView member).bind fun _ =>
      lift_noView _)
  | deleteBoardPost postId =>
    exact noView_follows ((required_noView _ session).bind fun member => (memberId_noView member).bind fun _ =>
      (lift_noView _).bind fun _ => (lift_noView _).bind fun _ => removePost_noView postId)
  | createComment payload =>
    exact noView_follows ((required_noView _ session).bind fun member => (lift_noView _).bind fun _ =>
      Within.bind (.ask rfl) fun _ => Within.bind (.ask rfl) fun _ => .ask rfl)
  | deleteComment commentId => exact noView_follows (deleteComment_noView commentId session)

/-- In every interleaving, a request adds to at most one view count, and at most once. -/
theorem views_le_one {world : World} {requests : SessionId → Option Request}
    {actions : List (Action (machine rules).traced)} {after : Config (machine rules).traced Unit}
    (reached : (start rules world requests).run actions = some after) (me : SessionId) :
    (Trace.own me after.world.2).countP (fun exchange => isView exchange.stmt) ≤ 1 := by
  refine Policy.count_le rfl (fun other program running => ?_) reached me
  obtain ⟨request, -, rfl⟩ := Option.map_eq_some_iff.mp running
  exact noView_then (.ask rfl) (endpoint_follows request)

end SogeconApp.Guarantees.Board
